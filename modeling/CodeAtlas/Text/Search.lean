/-!
# Looking for a piece of text

A text holds another when the second is read somewhere in it, letter for letter.
-/
namespace CodeAtlas.Text

def occursIn (piece : List Char) : List Char → Bool
  | [] => piece.isEmpty
  | c :: cs => piece.isPrefixOf (c :: cs) || occursIn piece cs

def holds (text piece : String) : Bool :=
  occursIn piece.toList text.toList

end CodeAtlas.Text
