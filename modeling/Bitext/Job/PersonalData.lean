import Bitext.Job.ContentCheck
import Bitext.Text.Pattern

/-!
# Personal data

A checker that lets a text pass if it holds nothing that looks like personal data: no mail address,
no phone number, no card number, and none of the literal texts given besides.
-/
namespace Bitext.Job

open Bitext.Text

/-- Letters of the Latin alphabet in either case, and the two characters that are case variants of
such letters: the long s and the Kelvin sign. -/
def isLatinLetter (c : Char) : Bool := c.isAlpha || c == 'ſ' || c == '\u212A'

/-- A character of the given list. -/
def isAmong (cs : String) (c : Char) : Bool := cs.toList.contains c

/-- A mail address: a name, an at sign, and a host that ends with a point and two or more letters. -/
def mailAddress : Pattern :=
  let name : Char → Bool := fun c => isLatinLetter c || c.isDigit || isAmong "._%+-" c
  let host : Char → Bool := fun c => isLatinLetter c || c.isDigit || isAmong ".-" c
  [.boundary, .one name, .many name, .one (· == '@'), .one host, .many host, .one (· == '.'),
    .one isLatinLetter, .one isLatinLetter, .many isLatinLetter, .boundary]

/-- A phone number: two digits with seven or more digits, blanks, parentheses, points and hyphens
between them, and perhaps a plus sign in front. -/
def phoneNumber : Pattern :=
  let inner : Char → Bool := fun c => Unicode.isDecimalDigit c || isAmong " ().-" c
  [.optional (· == '+'), .one Unicode.isDecimalDigit] ++ List.replicate 7 (.one inner) ++
    [.many inner, .one Unicode.isDecimalDigit]

/-- A card number of `n` digits, each perhaps followed by a blank or a hyphen. -/
def cardNumber (n : Nat) : Pattern :=
  .boundary ::
    ((List.replicate n [Element.one Unicode.isDecimalDigit, .optional (isAmong " -")]).flatten ++
      [.boundary])

/-- The patterns of personal data; card numbers have from 13 to 19 digits. -/
def personalData : List Pattern :=
  mailAddress :: phoneNumber :: (List.range 7).map fun n => cardNumber (13 + n)

/-- The checker for personal data and literal texts. -/
def personalDataChecker (literals : List Text) : Checker := fun texts =>
  texts.map fun t =>
    !(personalData.any (Pattern.occursIn · t) || literals.any fun l => (indexOf? l t).isSome)

end Bitext.Job
