import Mathlib.Data.List.Infix

namespace NatsClient

-- The %q verb.
def quoted (s : String) : String := s.quote

-- unicode.IsSpace.
def isSpace (c : Char) : Bool :=
  c.toNat ∈ [0x09, 0x0a, 0x0b, 0x0c, 0x0d, 0x20, 0x85, 0xa0, 0x1680, 0x2028, 0x2029, 0x202f,
    0x205f, 0x3000] || (0x2000 ≤ c.toNat && c.toNat ≤ 0x200a)

-- strings.TrimSpace.
def trimSpace (s : String) : String :=
  String.ofList ((s.toList.dropWhile isSpace).reverse.dropWhile isSpace).reverse

-- unicode.ToLower on the runes whose lower case is ASCII. Other runes stay
-- outside ASCII either way, and the result is compared with ASCII words only.
def toLowerRune (c : Char) : Char :=
  if c.toNat = 0x130 then 'i'
  else if c.toNat = 0x212a then 'k'
  else c.toLower

def toLower (s : String) : String := String.ofList (s.toList.map toLowerRune)

-- strings.Contains.
def containsText (s sub : String) : Bool :=
  s.toList.tails.any fun tail => sub.toList.isPrefixOf tail

theorem containsText_iff (s sub : String) :
    containsText s sub = true ↔ sub.toList <:+: s.toList := by
  simp only [containsText, List.any_eq_true, List.mem_tails, List.isPrefixOf_iff_prefix,
    List.infix_iff_prefix_suffix]
  exact exists_congr fun tail => and_comm

end NatsClient
