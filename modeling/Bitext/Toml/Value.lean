import Bitext.Text.Basic

/-!
# Tables of settings

The values that a TOML document holds, and the rules by which its lines build them.  A table can be
written down at several places only in some ways: a header may complete a table that was so far only
mentioned in other headers, and dotted keys may complete a table that dotted keys have begun.

## Main definitions

* `Toml`: a value.
* `Toml.changeAt`: changing the table that a path of keys leads to.
* `Toml.open`, `Toml.openElement`, `Toml.assign`: what headers and keys with values do.
-/
namespace Bitext

/-- How a table has come into being. -/
inductive TableKind where
  /-- By a header of its own. -/
  | header
  /-- By being mentioned in the header of another table. -/
  | implied
  /-- By a dotted key. -/
  | dotted
  /-- As a value between braces. -/
  | inline
  deriving DecidableEq, Repr

/-- A value of a TOML document. -/
inductive Toml where
  | text (t : Text)
  | integer (n : Int)
  | float (x : Float)
  | boolean (b : Bool)
  /-- A date, a time, or both; nothing is made of them. -/
  | moment
  | array (elements : List Toml)
  | table (kind : TableKind) (entries : List (Text × Toml))
  /-- Tables that were written under a header in double brackets. -/
  | tables (elements : List Toml)

namespace Toml

/-- Gives a key a value, in its place if it has one already. -/
def setEntry (key : Text) (value : Toml) : List (Text × Toml) → List (Text × Toml)
  | [] => [(key, value)]
  | (k, v) :: rest => if k = key then (key, value) :: rest else (k, v) :: setEntry key value rest

/-- A path may go on into a table: never into an inline one, and dotted keys not into one with a
header. -/
def admits (isDotted : Bool) : TableKind → Bool
  | .inline => false
  | .header => !isDotted
  | .implied | .dotted => true

/-- Changes the table that a path leads to.  Missing tables on the way are made; of the tables under
a header in double brackets the path goes into the last one. -/
def changeAt (isDotted : Bool) (change : Toml → Option Toml) :
    (path : List Text) → Toml → Option Toml
  | [], t => change t
  | key :: path, .table kind entries => do
    let missing : Toml := .table (if isDotted then .dotted else .implied) []
    let child ←
      match (entries.lookup key).getD missing with
      | .table k es => if admits isDotted k then changeAt isDotted change path (.table k es) else none
      | .tables elements => do
        let last ← changeAt isDotted change path (← elements.getLast?)
        return .tables (elements.dropLast ++ [last])
      | _ => none
    return .table kind (setEntry key child entries)
  | _, _ => none

/-- Changes the entry of a key, which may be missing, in the table that a path leads to. -/
def changeEntry (change : Option Toml → Option Toml) (key : Text) (path : List Text) (t : Toml) :
    Option Toml :=
  changeAt false (fun
    | .table kind entries => do
      return .table kind (setEntry key (← change (entries.lookup key)) entries)
    | _ => none) path t

/-- Begins the table of a header. -/
def openTable (path : List Text) (key : Text) (t : Toml) : Option Toml :=
  changeEntry (fun
    | none => some (.table .header [])
    | some (.table .implied entries) => some (.table .header entries)
    | _ => none) key path t

/-- Begins the next table of a header in double brackets. -/
def openElement (path : List Text) (key : Text) (t : Toml) : Option Toml :=
  changeEntry (fun
    | none => some (.tables [.table .header []])
    | some (.tables elements) => some (.tables (elements ++ [.table .header []]))
    | _ => none) key path t

/-- Gives a new key a value.  A dotted key leads into a table of dotted keys. -/
def assign (path : List Text) (key : Text) (value : Toml) (t : Toml) : Option Toml :=
  changeAt true (fun
    | .table kind entries =>
      if (kind == .dotted) == path.isEmpty || (entries.lookup key).isSome then none
      else some (.table kind (setEntry key value entries))
    | _ => none) path t

end Toml

end Bitext
