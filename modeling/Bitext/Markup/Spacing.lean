import Bitext.Markup.Piece

/-!
# Spacing inside tag pairs

Removes the blanks between an opening tag and its content and between the content and a closing tag,
where the content holds neither tags nor angle brackets.  A closing tag here is any tag that starts
with a slash and goes on.
-/
namespace Bitext.Markup

/-- The characters other than angle brackets that a sequence of pieces begins with, and the pieces
after them. -/
def plainRun : List Piece → Text × List Piece
  | .char c :: rest =>
    if isAngle c then ([], .char c :: rest)
    else
      let (run, after) := plainRun rest
      (c :: run, after)
  | ps => ([], ps)

theorem length_plainRun (ps : List Piece) : (plainRun ps).2.length ≤ ps.length := by
  induction ps with
  | nil => simp [plainRun]
  | cons p rest ih =>
    cases p with
    | tag b => simp [plainRun]
    | char c =>
      simp only [plainRun]
      split
      · simp
      · simp only [List.length_cons]
        omega

/-- The body of a tag that closes a pair. -/
def closesPair (body : Text) : Bool := body.head? == some '/' && 2 ≤ body.length

/-- A pair that a sequence of pieces goes on with after a tag: content, the body of the closing tag,
and the pieces after it. -/
def pairAfter? (ps : List Piece) : Option (Text × Text × List Piece) :=
  match plainRun ps with
  | ([], _) => none
  | (content, .tag body :: after) => if closesPair body then some (content, body, after) else none
  | _ => none

theorem length_pairAfter? {ps after : List Piece} {content body : Text}
    (h : pairAfter? ps = some (content, body, after)) : after.length < ps.length := by
  have short := length_plainRun ps
  unfold pairAfter? at h
  split at h
  · simp at h
  · rename_i _ found
    split at h
    · simp only [Option.some.injEq, Prod.mk.injEq] at h
      rw [found] at short
      simp only [List.length_cons] at short
      rw [← h.2.2]
      omega
    · simp at h
  · simp at h

/-- Tightens the pairs in a sequence of pieces.  A pair that begins with a self-closing tag is left
alone as a whole. -/
def tightenPieces (ps : List Piece) : Text :=
  match ps with
  | [] => []
  | .char c :: rest => c :: tightenPieces rest
  | .tag body :: rest =>
    if body.head? == some '/' then tagText body ++ tightenPieces rest
    else
      match _found : pairAfter? rest with
      | some (content, closing, after) =>
        let content := if TagKind.of body = .selfClosing then content else Text.trim content
        tagText body ++ content ++ tagText closing ++ tightenPieces after
      | none => tagText body ++ tightenPieces rest
termination_by ps.length
decreasing_by
  · simp
  · simp
  · have := length_pairAfter? _found
    simp only [List.length_cons]
    omega
  · simp

/-- Removes the blanks inside tag pairs. -/
def tighten (t : Text) : Text := tightenPieces (pieces t)

end Bitext.Markup
