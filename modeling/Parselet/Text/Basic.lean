/-!
Text as a list of code points. Every number below 0x110000 is a code point, so a surrogate may
stand alone, and lengths and cuts always count code points.
-/

namespace Parselet

abbrev CodePoint := Fin 0x110000

abbrev Text := List CodePoint

theorem char_toNat_lt (c : Char) : c.toNat < 0x110000 := by
  rcases c.valid with h | ⟨_, h⟩
  · exact Nat.lt_trans h (by decide)
  · exact h

def CodePoint.ofChar (c : Char) : CodePoint := ⟨c.toNat, char_toNat_lt c⟩

instance : Coe Char CodePoint := ⟨CodePoint.ofChar⟩

/-- The code point with the number `n`, counted around at the end of the range. -/
def CodePoint.ofNat (n : Nat) : CodePoint := ⟨n % 0x110000, Nat.mod_lt n (by decide)⟩

theorem CodePoint.ofNat_val (c : CodePoint) : CodePoint.ofNat c.val = c :=
  Fin.ext (Nat.mod_eq_of_lt c.isLt)

def Text.ofString (s : String) : Text := s.toList.map CodePoint.ofChar

instance : Coe String Text := ⟨Text.ofString⟩

def CodePoint.lineFeed : CodePoint := .ofNat 0x0A

def CodePoint.carriageReturn : CodePoint := .ofNat 0x0D

def CodePoint.tabulator : CodePoint := .ofNat 0x09

def CodePoint.isSurrogate (c : CodePoint) : Bool := 0xD800 ≤ c.val && c.val ≤ 0xDFFF

namespace Text

/-- The first `limit` code points; a negative `limit` drops that many from the end instead. -/
def cut (limit : Int) (t : Text) : Text :=
  if 0 ≤ limit then t.take limit.toNat else t.take (t.length - limit.natAbs)

/-- How much of the input a message quotes. -/
def excerptLimit : Nat := 10

/-- The whole of `t` if it fits in `limit` code points, else its beginning and an ellipsis. -/
def excerptWithin (limit : Int) (t : Text) : Text :=
  if limit < t.length then cut limit t ++ "..." else t

/-- The part of `t` that a message quotes. -/
def excerpt (t : Text) : Text := excerptWithin excerptLimit t

/-- The parts one after another, with `separator` between neighbours. -/
def join (separator : Text) : List Text → Text
  | [] => []
  | [t] => t
  | t :: ts => t ++ separator ++ join separator ts

/-- What follows the first part is a separator and a part, over and over. -/
theorem join_cons (separator t : Text) (ts : List Text) :
    join separator (t :: ts) = t ++ ts.flatMap (separator ++ ·) := by
  induction ts generalizing t with
  | nil => simp [join]
  | cons u ts ih => rw [join, ih, List.flatMap_cons, List.append_assoc, List.append_assoc]; simp

end Text

end Parselet
