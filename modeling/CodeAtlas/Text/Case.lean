import CodeAtlas.Text.CaseMap

/-!
# Upper and lower case of texts

The full mappings: a character may become several, as the sharp s does in upper case. One mapping
looks around: a capital sigma at the end of a word becomes the final sigma. It ends a word when a
cased character stands before it and none after it, characters without a bearing on case being
passed over.
-/
namespace CodeAtlas.Text

/-- Whether the first character with a bearing on case is a cased one. -/
def meetsCased (cs : List Char) : Bool :=
  (cs.dropWhile caseIgnorableSet.contains).head?.any casedSet.contains

/-- The lower-case form of a character between what stands before it, nearest first, and after
it. -/
def lowerChar (before after : List Char) (c : Char) : List Char :=
  if c = 'Σ' then (if meetsCased before && !meetsCased after then ['ς'] else ['σ'])
  else if c.toNat < 128 then [c.toLower]
  else lowerMap.apply c

/-- Lower case of a text whose beginning, reversed, is `before`, and has been written, reversed, as
`written`. -/
def lowerFrom (before written : List Char) : List Char → List Char
  | [] => written.reverse
  | c :: cs => lowerFrom (c :: before) ((lowerChar before cs c).reverse ++ written) cs

def lowerCase (s : String) : String :=
  String.ofList (lowerFrom [] [] s.toList)

def upperCase (s : String) : String :=
  String.ofList (s.toList.flatMap upperMap.apply)

end CodeAtlas.Text
