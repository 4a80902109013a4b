import Parselet.Token.QuotedString
import Parselet.Proofs.Text.Span

/-!
The format of quoted text. Between the quotes stand pieces, each with a spelling and a meaning.
Whether the letter `u` after the escape character stands for itself depends on what follows it in
the input, so a piece is legal or not before a given text.
-/

namespace Parselet

/-- A digit of base sixteen, whose letters may be of either case. -/
def CodePoint.IsHexDigit (c : CodePoint) : Prop :=
  (0x30 ≤ c.val ∧ c.val ≤ 0x39) ∨ (0x41 ≤ c.val ∧ c.val ≤ 0x46) ∨ (0x61 ≤ c.val ∧ c.val ≤ 0x66)

instance (c : CodePoint) : Decidable c.IsHexDigit := inferInstanceAs (Decidable (_ ∨ _ ∨ _))

/-- Four hexadecimal digits. -/
def Text.IsCode (t : Text) : Prop := t.length = 4 ∧ ∀ c ∈ t, c.IsHexDigit

namespace QuotedString

/-- The special characters and the table of escapes. -/
structure Style where
  quote : CodePoint
  escape : CodePoint
  escapes : Parser.Escapes

def Style.standard : Style := ⟨'"', '\\', Parser.standardEscapes⟩

def letterU : CodePoint := 'u'

inductive Piece where
  | plain (c : CodePoint)
  | key (k : CodePoint) (m : Text)
  | code (digits : Text)
  | self (c : CodePoint)

variable (y : Style)

def Piece.spelled : Piece → Text
  | plain c => [c]
  | key k _ => [y.escape, k]
  | code digits => y.escape :: letterU :: digits
  | self c => [y.escape, c]

def Piece.meant : Piece → Text
  | plain c => [c]
  | key _ m => m
  | code digits => [CodePoint.ofNat (Text.hexValue digits)]
  | self c => [c]

/-- The piece is legal where `after` follows it in the input. -/
def Piece.LegalBefore (after : Text) : Piece → Prop
  | plain c => c ≠ y.quote ∧ c ≠ y.escape
  | key k m => y.escapes.lookup [k] = some m
  | code digits => y.escapes.lookup [letterU] = none ∧ digits.IsCode
  | self c => y.escapes.lookup [c] = none ∧
      ¬ (c = letterU ∧ ∃ digits k, after = digits ++ k ∧ digits.IsCode)

/-- Pieces one after another. -/
def spelled (us : List Piece) : Text := us.flatMap (Piece.spelled y)

def meant (us : List Piece) : Text := us.flatMap Piece.meant

/-- Each piece is legal before the rest of them and `after`. -/
def LegalBefore (after : Text) : List Piece → Prop
  | [] => True
  | u :: us => u.LegalBefore y (spelled y us ++ after) ∧ LegalBefore after us

def Style.parser : Parser := Parser.quotedString y.quote y.escape y.escapes

end QuotedString

/-! ## Hexadecimal digits -/

theorem hexDigits_eq_ranges :
    Text.hexDigits = (List.range' 0x30 10 ++ List.range' 0x41 6 ++ List.range' 0x61 6).map
      CodePoint.ofNat := by
  decide +kernel

theorem hexDigits_contains_iff {c : CodePoint} :
    Text.hexDigits.contains c = true ↔ c.IsHexDigit := by
  -- membership in one range of the table
  have hmem (a n : Nat) (hn : a + n ≤ 0x110000) :
      (∃ k, (a ≤ k ∧ k < a + n) ∧ CodePoint.ofNat k = c) ↔ a ≤ c.val ∧ c.val < a + n := by
    constructor
    · rintro ⟨k, hk, rfl⟩
      simp only [CodePoint.ofNat]
      omega
    · intro hc
      exact ⟨c.val, hc, CodePoint.ofNat_val c⟩
  rw [List.contains_iff_mem, hexDigits_eq_ranges]
  simp only [List.map_append, List.mem_append, List.mem_map, List.mem_range'_1]
  rw [hmem 0x30 10 (by omega), hmem 0x41 6 (by omega), hmem 0x61 6 (by omega),
    CodePoint.IsHexDigit]
  omega

theorem CodePoint.not_isSpace_of_isHexDigit {c : CodePoint} (h : c.IsHexDigit) :
    c.isSpace = false := by
  have hranges : ∀ s ∈ spaceRanges.ranges, s.2 < 0x30 ∨ 0x66 < s.1 := by decide
  by_contra hspace
  obtain ⟨s, hs, hlo, hhi⟩ :=
    Ranges.exists_mem_of_contains (Bool.eq_true_of_not_eq_false hspace)
  have := hranges s hs
  unfold IsHexDigit at h
  omega

namespace QuotedString

variable {y : Style} {a k : Text} {us : List Piece}

/-- Whatever goes on without a hexadecimal digit keeps the pieces legal. -/
theorem LegalBefore.append (h : LegalBefore y a us)
    (hk : Text.Avoids (fun c => decide c.IsHexDigit) k) : LegalBefore y (a ++ k) us := by
  induction us with
  | nil => trivial
  | cons u us ih =>
    refine ⟨?_, ih h.2⟩
    cases u with
    | self c =>
      refine ⟨h.1.1, ?_⟩
      rintro ⟨rfl, digits, left, happend, hcode⟩
      rw [← List.append_assoc] at happend
      rcases List.append_eq_append_iff.1 happend with ⟨b, rfl, rfl⟩ | ⟨b, hdigits, -⟩
      · -- a digit of the code would stand at the beginning of `k`
        cases b with
        | nil =>
          rw [List.append_nil] at hcode
          exact h.1.2 ⟨rfl, _, [], (List.append_nil _).symm, hcode⟩
        | cons d b => exact of_decide_eq_false (Text.avoids_cons.1 hk) (hcode.2 d (by simp))
      · exact h.1.2 ⟨rfl, digits, b, hdigits, hcode⟩
    | _ => exact h.1

end QuotedString

end Parselet
