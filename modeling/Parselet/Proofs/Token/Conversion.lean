import Parselet.Token.Number
import Parselet.Token.Name
import Parselet.Proofs.Parser.Yields
import Parselet.Proofs.QuotedString.Format
import Parselet.Proofs.Text.Lower
import Parselet.Proofs.Token.Lexeme

/-!
What the tokens convert and what they make of it. A token reads a text of a certain form before it
converts it, so that the conversion is defined there, and the number of digits it has read bounds the
integer that it makes.
-/

namespace Parselet

namespace Text

/-! ## Forms of numbers -/

def IsSign (t : Text) : Prop := t = [('+' : CodePoint)] ∨ t = [('-' : CodePoint)]

/-- A point and the digits after it. -/
def IsFraction (t : Text) : Prop := ∃ ds, IsDigits ds ∧ t = ('.' : CodePoint) :: ds

/-- Digits with an optional fraction, or a fraction alone. -/
def IsMantissa (t : Text) : Prop :=
  (∃ ds f, IsDigits ds ∧ (f = [] ∨ IsFraction f) ∧ t = ds ++ f) ∨ IsFraction t

def IsExponent (t : Text) : Prop :=
  ∃ c sign ds, (c = ('e' : CodePoint) ∨ c = ('E' : CodePoint)) ∧ (sign = [] ∨ IsSign sign) ∧
    IsDigits ds ∧ t = c :: (sign ++ ds)

/-- A decimal number as it may be read as a floating point number. -/
def IsDecimal (t : Text) : Prop :=
  ∃ sign m e, (sign = [] ∨ IsSign sign) ∧ IsMantissa m ∧ (e = [] ∨ IsExponent e) ∧
    t = sign ++ (m ++ e)

/-- Digits write no longer an integer than they are. -/
theorem digitCount_positional_le {t : Text} (ht : IsDigits t) :
    digitCount (positional t) ≤ t.length := by
  have hlt : positional t < 10 ^ t.length := by
    rw [positional_eq_decimalValue ht.2, decimalValue]
    refine Nat.lt_of_lt_of_eq (Nat.ofDigits_lt_base_pow_length (by decide) fun d hd => ?_) (by simp)
    obtain ⟨c, hc, rfl⟩ := List.mem_map.1 hd
    obtain ⟨d, hd⟩ := Option.isSome_iff_exists.1 (ht.2 c (List.mem_reverse.1 hc))
    rw [hd]
    exact CodePoint.digitValue?_lt hd
  exact Nat.toDigits_length 10 _ _ (List.length_pos_iff.2 ht.1) hlt

theorem signCharacters_contains {c : CodePoint} (h : Parser.signCharacters.contains c = true) :
    IsSign [c] := by
  have hmem : c ∈ [('+' : CodePoint), ('-' : CodePoint)] := List.contains_iff_mem.1 h
  simpa [IsSign] using hmem

end Text

/-! ## The letter of exponents -/

/-- Of all capitals only that of ASCII has the lower case `e`. -/
theorem lowerRuns_to_e : ∀ r ∈ lowerRuns,
    r.first ≤ 0x65 - r.shift → 0x65 - r.shift ≤ r.last → r.shift = 32 := by
  decide +kernel

theorem CodePoint.eq_of_lower_eq {c : CodePoint} (h : c.lower = ('e' : CodePoint)) :
    c = ('e' : CodePoint) ∨ c = ('E' : CodePoint) := by
  have hval : LowerRun.lookup lowerRuns c = 0x65 := c.val_lower.symm.trans (congrArg Fin.val h)
  rcases LowerRun.lookup_cases lowerRuns c with hsame | ⟨r, hr, hfirst, hlast, -, hshift⟩
  · exact .inl (Fin.ext (hsame.symm.trans hval))
  · have hcapital := lowerRuns_to_e r hr (by omega) (by omega)
    have hc : c.val = 0x45 := by omega
    exact .inr (Fin.ext hc)

theorem Text.eq_of_lower_eq {c : CodePoint} (h : Text.lower [c] = Text.lower "e") :
    c = ('e' : CodePoint) ∨ c = ('E' : CodePoint) := by
  have he : CodePoint.lower 'e' = ('e' : CodePoint) := by decide +kernel
  exact CodePoint.eq_of_lower_eq ((lower_eq_of_alone h).1.trans he)

/-! ## Values that spell a text -/

namespace Value

theorem exists_map_of_forall {α : Type} {P : α → Prop} {f : α → Value} {vs : List Value}
    (h : ∀ v ∈ vs, ∃ a, P a ∧ v = f a) : ∃ as : List α, (∀ a ∈ as, P a) ∧ vs = as.map f := by
  induction vs with
  | nil => exact ⟨[], by simp, rfl⟩
  | cons v vs ih =>
    obtain ⟨⟨a, ha, rfl⟩, hvs⟩ := List.forall_mem_cons.1 h
    obtain ⟨as, has, rfl⟩ := ih hvs
    exact ⟨a :: as, List.forall_mem_cons.2 ⟨ha, has⟩, rfl⟩

/-- A character of which `P` holds. -/
def IsCharacter (P : CodePoint → Prop) (v : Value) : Prop := ∃ c, P c ∧ v = .text [c]

/-- The list of the characters of a text that `A` holds of. -/
def ListsCharacters (A : Text → Prop) (v : Value) : Prop :=
  ∃ t : Text, A t ∧ v = .list (t.map fun c => .text [c])

/-- A text that `A` holds of; an absent part stands for the empty text. -/
def IsPart (A : Text → Prop) (v : Value) : Prop := ∃ t, A t ∧ v.orEmpty = .text t

theorem isPart_text {A : Text → Prop} {t : Text} (h : A t) : IsPart A (.text t) := ⟨t, h, rfl⟩

theorem joinedParts_of_isPart {As : List (Text → Prop)} {vs : List Value}
    (h : List.Forall₂ (fun v A => IsPart A v) vs As) :
    ∃ ts, List.Forall₂ (fun t A => A t) ts As ∧ (tuple vs).joinedParts = .ok ts.flatten := by
  have htexts : ∃ ts, List.Forall₂ (fun t A => A t) ts As ∧
      List.Forall₂ (fun v t => orEmpty v = .text t) vs ts := by
    induction h with
    | nil => exact ⟨[], .nil, .nil⟩
    | cons hv _ ih =>
      obtain ⟨t, ht, hempty⟩ := hv
      obtain ⟨ts, hts, hmap⟩ := ih
      exact ⟨t :: ts, .cons ht hts, .cons hempty hmap⟩
  obtain ⟨ts, hts, hmap⟩ := htexts
  exact ⟨ts, hts, joinedParts_of_forall₂ hmap⟩

end Value

namespace Parser

open Value

variable {store : Store} {s : Settings} {n : Nat} {p : Parser} {ps : List Parser}
  {A B : Text → Prop} {P : CodePoint → Prop} {m name : Text}

/-! ## Characters and digits -/

theorem yields_isCharacter {accepts : CodePoint → Bool} (h : ∀ c, accepts c = true → P c) :
    Yields store s n (IsCharacter P) (satisfy accepts m) :=
  yields_satisfy fun c hc => ⟨c, h c hc, rfl⟩

theorem yields_class (accepts : CodePoint → Bool) (m : Text) :
    Yields store s n (IsCharacter fun c => accepts c = true) (satisfy accepts m) :=
  yields_isCharacter fun _ hc => hc

theorem Yields.many_characters (hp : Yields store s n (IsCharacter P) p) :
    Yields store s n (ListsCharacters fun t => ∀ c ∈ t, P c) p.many := by
  refine Yields.many hp fun vs hvs => ?_
  obtain ⟨t, ht, rfl⟩ := exists_map_of_forall hvs
  exact ⟨t, ht, rfl⟩

theorem yields_skipWhitespace : Yields store s n (fun _ => True) skipWhitespace := by
  have hspaces : Yields store s n _ (many whitespace) :=
    (yields_class CodePoint.isSpace "whitespace").many_characters
  exact Yields.map hspaces fun v _ _ => ⟨.nothing, rfl, trivial, rfl⟩

theorem yields_many1_digit :
    Yields store s n (ListsCharacters Text.IsDigits) (many1 digit) := by
  have hdigits : Yields store s n _ (many digit) :=
    (yields_class CodePoint.isDigit "a digit").many_characters
  refine (Yields.nonempty hdigits).mono ?_
  rintro v ⟨⟨t, ht, rfl⟩, hne⟩ -
  exact ⟨t, ⟨fun h => hne (by rw [h]; rfl), ht⟩, rfl⟩

theorem pure_of_fits {limit : Limit} {v : Value} (h : v.fits limit = true) :
    ∃ name, Parser.pure limit v = .ok (mk name (.pure v)) :=
  ⟨_, by rw [Parser.pure, written?_of_fits h]; rfl⟩

/-- The integer that digits write is no longer than they are, so it fits if they are not too many. -/
theorem fits_positional {limit : Limit} {t : Text} (ht : Text.IsDigits t)
    (hallows : limit.allows t.length = true) :
    (Value.int (Text.positional t)).fits limit = true := by
  rw [fits_int_iff]
  have hle := Text.digitCount_positional_le ht
  cases limit with
  | none => rfl
  | some bound =>
    rw [Limit.allows, decide_eq_true_eq] at hallows
    exact decide_eq_true (hle.trans hallows)

theorem yields_integer : Yields store s n (fun v => ∃ k, v = .int k) integer := by
  refine Yields.flatMap yields_many1_digit ?_
  rintro v ⟨t, ht, rfl⟩ -
  rw [integerOf_characters _ ht]
  split
  · next hallows =>
    have hfits := fits_positional ht hallows
    obtain ⟨name, hname⟩ := pure_of_fits hfits
    exact ⟨_, hname, yields_pure ⟨_, rfl⟩ hfits⟩
  · exact ⟨_, rfl, yields_fail _⟩

theorem yields_digits : Yields store s n (IsPart Text.IsDigits) digits := by
  refine Yields.map yields_many1_digit ?_
  rintro v ⟨t, ht, rfl⟩ -
  exact ⟨.text t, by rw [Value.Function.joined, joined_of_characters rfl]; rfl, isPart_text ht, rfl⟩

/-! ## Numbers -/

theorem yields_sign : Yields store s n (IsPart Text.IsSign) sign :=
  yields_satisfy fun _ hc => isPart_text (Text.signCharacters_contains hc)

theorem Yields.optional_part (hp : Yields store s n (IsPart A) p) :
    Yields store s n (IsPart fun t => t = [] ∨ A t) p.optional := by
  refine Yields.optional (hp.mono ?_) ⟨[], .inl rfl, rfl⟩
  rintro v ⟨t, ht, hv⟩ -
  exact ⟨t, .inr ht, hv⟩

/-- Parts in a row are joined to the text that they make up. -/
theorem yields_joinedParts {As : List (Text → Prop)}
    (hps : List.Forall₂ (fun p A => Yields store s n (IsPart A) p) ps As)
    (h : ∀ ts, List.Forall₂ (fun t A => A t) ts As → B ts.flatten) :
    Yields store s n (IsPart B) ((seq ps).map Value.Function.joinedParts) := by
  have hseq : Yields store s n (fun v => ∃ t, B t ∧ v.joinedParts = .ok t) (seq ps) := by
    refine Yields.seq (List.forall₂_map_right_iff.2 hps) fun vs hvs => ?_
    rw [List.forall₂_map_right_iff] at hvs
    obtain ⟨ts, hts, hjoined⟩ := joinedParts_of_isPart hvs
    exact ⟨_, h ts hts, hjoined⟩
  refine Yields.map hseq ?_
  rintro v ⟨t, ht, hjoined⟩ -
  exact ⟨.text t, by rw [Value.Function.joinedParts, hjoined]; rfl, isPart_text ht, rfl⟩

theorem yields_fraction : Yields store s n (IsPart Text.IsFraction) fraction := by
  have hpoint : Yields store s n (IsPart (· = [('.' : CodePoint)])) (character '.') :=
    yields_character (isPart_text rfl)
  refine yields_joinedParts (.cons hpoint (.cons yields_digits .nil)) ?_
  rintro _ (_ | ⟨rfl, _ | ⟨hds, ⟨⟩⟩⟩)
  exact ⟨_, hds, by simp⟩

theorem yields_mantissa : Yields store s n (IsPart Text.IsMantissa) mantissa := by
  refine Yields.orElse (yields_joinedParts
    (.cons yields_digits (.cons yields_fraction.optional_part .nil)) ?_) (yields_fraction.mono ?_)
  · rintro _ (_ | ⟨hds, _ | ⟨hf, ⟨⟩⟩⟩)
    exact .inl ⟨_, _, hds, hf, by simp⟩
  · rintro v ⟨t, ht, hv⟩ -
    exact ⟨t, .inr ht, hv⟩

theorem yields_exponent : Yields store s n (IsPart Text.IsExponent) exponent := by
  have hletter : Yields store s n
      (IsPart fun t => t = [('e' : CodePoint)] ∨ t = [('E' : CodePoint)]) (anycase "e") := by
    refine yields_anycase fun found hlength hlower => isPart_text ?_
    obtain ⟨c, rfl⟩ := List.length_eq_one_iff.1 hlength
    simpa using Text.eq_of_lower_eq hlower
  refine yields_joinedParts
    (.cons hletter (.cons yields_sign.optional_part (.cons yields_digits .nil))) ?_
  rintro _ (_ | ⟨hletter, _ | ⟨hsign, _ | ⟨hds, ⟨⟩⟩⟩⟩)
  rcases hletter with rfl | rfl
  · exact ⟨_, _, _, .inl rfl, hsign, hds, by simp⟩
  · exact ⟨_, _, _, .inr rfl, hsign, hds, by simp⟩

/-- The parts of a decimal number make up a text that stands for a floating point number. -/
theorem yields_decimalParts :
    Yields store s n (fun v => ∃ t, Text.IsDecimal t ∧ v.joinedParts = .ok t)
      (seq [sign.optional, mantissa, exponent.optional]) := by
  refine Yields.seq (List.forall₂_map_right_iff.2 (.cons yields_sign.optional_part
    (.cons yields_mantissa (.cons yields_exponent.optional_part .nil)))) fun vs hvs => ?_
  rw [List.forall₂_map_right_iff] at hvs
  obtain ⟨_, (_ | ⟨hsign, _ | ⟨hm, _ | ⟨he, ⟨⟩⟩⟩⟩), hjoined⟩ := joinedParts_of_isPart hvs
  exact ⟨_, ⟨_, _, _, hsign, hm, he, by simp⟩, hjoined⟩

theorem yields_decimalNumber : Yields store s n (fun _ => True) decimalNumber := by
  refine Yields.map yields_decimalParts ?_
  rintro v ⟨t, -, hjoined⟩ -
  exact ⟨.float (Binary64.ofText t), by rw [floatOf, hjoined]; rfl, trivial, rfl⟩

theorem yields_signedParts :
    Yields store s n (fun v => ∃ w k, v = .tuple [w, .int k]) (seq [sign.optional, integer]) := by
  refine Yields.seq (.cons yields_sign.optional_part (.cons yields_integer .nil)) ?_
  rintro _ (_ | ⟨-, _ | ⟨⟨k, rfl⟩, ⟨⟩⟩⟩)
  exact ⟨_, k, rfl⟩

/-- A sign adds no digit. -/
theorem yields_signedInteger : Yields store s n (fun v => ∃ k, v = .int k) signedInteger := by
  refine Yields.map yields_signedParts ?_
  rintro _ ⟨w, k, rfl⟩ hfits
  have hk : (Value.int k).fits s.limit = true := fits_tuple_iff.1 hfits _ (by simp)
  refine ⟨_, applySign_pair w k, ⟨_, rfl⟩, ?_⟩
  split
  · rwa [fits_int_iff, Text.digitCount, Int.natAbs_neg]
  · exact hk

/-! ## Names and quoted text -/

/-- The text of a value. -/
def IsText (v : Value) : Prop := ∃ t, v = .text t

theorem yields_nameParts :
    Yields store s n (fun v => ∃ c w, v = .tuple [.text [c], w] ∧ ∃ t, w.joined = .ok t)
      (seq [letter.orElse (character '_'), many (alphanumeric.orElse (character '_'))]) := by
  have hcharacter (accepts : CodePoint → Bool) (m : Text) :
      Yields store s n (IsCharacter fun _ => True) ((satisfy accepts m).orElse (character '_')) :=
    Yields.orElse (yields_isCharacter fun _ _ => trivial)
      (yields_character ⟨_, trivial, rfl⟩)
  refine Yields.seq (.cons (hcharacter CodePoint.isLetter "a letter")
    (.cons (hcharacter _ "an alphanumeric character").many_characters .nil)) ?_
  rintro _ (_ | ⟨⟨c, -, rfl⟩, _ | ⟨⟨t, -, rfl⟩, ⟨⟩⟩⟩)
  exact ⟨c, _, rfl, t, joined_of_characters rfl⟩

theorem yields_identifier : Yields store s n IsText identifier := by
  refine Yields.map yields_nameParts ?_
  rintro _ ⟨c, w, rfl, t, hjoined⟩ -
  exact ⟨.text ([c] ++ t), nameOf_pair hjoined, ⟨_, rfl⟩, rfl⟩

theorem yields_hexDigit : Yields store s n (IsCharacter CodePoint.IsHexDigit) hexDigit :=
  yields_isCharacter fun _ hc => hexDigits_contains_iff.1 hc

theorem yields_code :
    Yields store s n (fun v => ∃ t, Text.IsCode t ∧ v.joined = .ok t)
      (seq [hexDigit, hexDigit, hexDigit, hexDigit]) := by
  refine Yields.seq (.cons yields_hexDigit (.cons yields_hexDigit (.cons yields_hexDigit
    (.cons yields_hexDigit .nil)))) fun vs hvs => ?_
  have hall : ∀ v ∈ vs, IsCharacter CodePoint.IsHexDigit v := by
    rcases hvs with _ | ⟨h₁, _ | ⟨h₂, _ | ⟨h₃, _ | ⟨h₄, ⟨⟩⟩⟩⟩⟩
    simp [h₁, h₂, h₃, h₄]
  obtain ⟨t, ht, rfl⟩ := exists_map_of_forall hall
  have hlength : t.length = 4 := by simpa using hvs.length_eq
  exact ⟨t, ⟨hlength, ht⟩, joined_of_characters rfl⟩

theorem yields_unicodeEscape : Yields store s n IsText unicodeEscape := by
  have hletter : Yields store s n (fun _ => True) (character 'u') := yields_character trivial
  refine Yields.map (hletter.andThen yields_code) ?_
  rintro v ⟨t, -, hjoined⟩ -
  exact ⟨_, by rw [characterOf, hjoined]; rfl, ⟨_, rfl⟩, rfl⟩

/-- A character that is a key of the table. -/
theorem yields_key (escapes : Escapes) (m : Text) :
    Yields store s n (fun v => ∃ c t, escapes.lookup [c] = some t ∧ v = .text [c])
      (satisfy (isKey escapes) m) := by
  refine yields_satisfy fun c hc => ?_
  obtain ⟨t, ht⟩ := Option.isSome_iff_exists.1 hc
  exact ⟨c, t, ht, rfl⟩

theorem yields_escaped (escape : CodePoint) (escapes : Escapes) :
    Yields store s n IsText (escaped escape escapes) := by
  have hescape : Yields store s n (fun _ => True) (character escape) := yields_character trivial
  refine hescape.andThen (Yields.oneOf fun q hq => ?_)
  simp only [List.mem_cons, List.not_mem_nil, or_false] at hq
  rcases hq with rfl | rfl | rfl
  · refine Yields.map (yields_key escapes _) ?_
    rintro _ ⟨c, t, ht, rfl⟩ -
    exact ⟨.text t, by rw [meaning, ht], ⟨_, rfl⟩, rfl⟩
  · exact yields_unicodeEscape
  · exact yields_satisfy fun c _ => ⟨_, rfl⟩

theorem yields_pieces (quote escape : CodePoint) (escapes : Escapes) :
    Yields store s n (fun v => ∃ t, v.joined = .ok t)
      (many ((escaped escape escapes).orElse (unescaped quote escape))) := by
  have hpiece : Yields store s n IsText
      ((escaped escape escapes).orElse (unescaped quote escape)) :=
    Yields.orElse (yields_escaped escape escapes) (yields_satisfy fun c _ => ⟨_, rfl⟩)
  refine Yields.many hpiece fun vs hvs => ?_
  have htexts : ∀ v ∈ vs, ∃ t, True ∧ v = .text t := fun v hv =>
    (hvs v hv).imp fun _ ht => ⟨trivial, ht⟩
  obtain ⟨ts, -, rfl⟩ := exists_map_of_forall htexts
  exact ⟨_, joined_of_items rfl⟩

theorem yields_quotedString (quote escape : CodePoint) (escapes : Escapes) :
    Yields store s n IsText (quotedString quote escape escapes) := by
  have hquote : Yields store s n (fun _ => True) (character quote) := yields_character trivial
  refine hquote.between (Yields.map (yields_pieces quote escape escapes) ?_) hquote
  rintro v ⟨t, hjoined⟩ -
  exact ⟨.text t, by rw [Value.Function.joined, hjoined]; rfl, ⟨_, rfl⟩, rfl⟩

/-! ## What is converted -/

/-- The tokens convert the values of `p`, and their conversions are defined where `A` holds: the
integer of some digits, the sign of an integer, the floating point number of a decimal number, the
character of a code, the meaning of a key of a table, and texts of parts. -/
inductive Converts : Parser → (Value → Prop) → Prop
  | integer : Converts (many1 digit) (ListsCharacters Text.IsDigits)
  | signedInteger : Converts (seq [sign.optional, integer]) fun v => ∃ w k, v = .tuple [w, .int k]
  | decimalNumber : Converts (seq [sign.optional, mantissa, exponent.optional])
      fun v => ∃ t, Text.IsDecimal t ∧ v.joinedParts = .ok t
  | unicodeEscape : Converts (seq [hexDigit, hexDigit, hexDigit, hexDigit])
      fun v => ∃ t, Text.IsCode t ∧ v.joined = .ok t
  | escape (escapes : Escapes) : Converts (satisfy (isKey escapes) "an escape sequence")
      fun v => ∃ c t, escapes.lookup [c] = some t ∧ v = .text [c]
  | quotedString (quote escape : CodePoint) (escapes : Escapes) :
      Converts (many ((escaped escape escapes).orElse (unescaped quote escape)))
        fun v => ∃ t, v.joined = .ok t
  | identifier :
      Converts (seq [letter.orElse (character '_'), many (alphanumeric.orElse (character '_'))])
        fun v => ∃ c w, v = .tuple [.text [c], w] ∧ ∃ t, w.joined = .ok t

theorem Converts.yields {A : Value → Prop} (h : Converts p A) : Yields store s n A p := by
  cases h with
  | integer => exact yields_many1_digit
  | signedInteger => exact yields_signedParts
  | decimalNumber => exact yields_decimalParts
  | unicodeEscape => exact yields_code
  | escape escapes => exact yields_key escapes _
  | quotedString quote escape escapes => exact yields_pieces quote escape escapes
  | identifier => exact yields_nameParts

end Parser

end Parselet
