/-!
# JSON values

A JSON value keeps integers apart from numbers with a fraction or an exponent, of which only the
literal is kept, and fields in the order in which they were written. A string that holds half of
a surrogate pair has no text; such a string, or an object with such a key, is `unreadable`: it may
stand where a value is ignored and nowhere else.
-/
namespace StackKeeper

inductive Json where
  | null
  | bool (value : Bool)
  | int (value : Int)
  | real (literal : String)
  | str (value : String)
  | arr (items : List Json)
  | obj (fields : List (String × Json))
  | unreadable
deriving Inhabited

namespace Json

def field? (name : String) : Json → Option Json
  | .obj fields => (fields.find? fun f => f.1 == name).map (·.2)
  | _ => none

def ofTexts (l : List String) : Json := .arr (l.map .str)

end Json
end StackKeeper
