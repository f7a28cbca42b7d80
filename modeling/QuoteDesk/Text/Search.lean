/-!
Finding a text inside another.
-/
namespace QuoteDesk.Text

def occursIn (part : List Char) : List Char → Bool
  | [] => part.isEmpty
  | c :: cs => part.isPrefixOf (c :: cs) || occursIn part cs

def contains (s part : String) : Bool := occursIn part.toList s.toList

end QuoteDesk.Text
