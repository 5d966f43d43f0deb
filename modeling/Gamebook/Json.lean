import Gamebook.Text.Numeral
set_option autoImplicit false

/-!
# JSON values

The values of the data format in which settings are kept.  Numbers with a
fraction or an exponent, and the words for infinity and for no number, are read
but not told apart.
-/

namespace Gamebook

/-- A JSON value. -/
inductive Json where
  | null
  | boolean (value : Bool)
  | integer (value : Int)
  /-- A number that is not written as an integer. -/
  | real
  | text (value : Text)
  | array (items : List Json)
  /-- The members in the order in which they are written, the names repeated or
  not. -/
  | object (members : List (Text × Json))
  deriving Inhabited

namespace Json

/-- The value of a member: of several with one name the last counts. -/
def member? (name : Text) (members : List (Text × Json)) : Option Json :=
  members.reverse.lookup name

end Json

end Gamebook
