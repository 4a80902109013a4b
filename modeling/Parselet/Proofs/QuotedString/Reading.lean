import Parselet.Proofs.QuotedString.Format
import Parselet.Proofs.Token.Lexeme

/-!
Quoted text is read as its format has it. The parser that is repeated between the quotes reads one
piece; what it answers for the whole is the meanings of the pieces, one after another.
-/

namespace Parselet.QuotedString

open Parselet.Parser Parselet.Text

variable {store : Store} {limit : Limit} {src rest m : Text} {v : Value} {y : Style}

/-! ## A fixed number of characters of one class -/

theorem gives_replicate_satisfy {accepts : CodePoint → Bool} {n : Nat} :
    (run store limit (seq (List.replicate n (satisfy accepts m)))).Gives src (.success v rest) ↔
      ∃ ds, src = ds ++ rest ∧ ds.length = n ∧ (∀ c ∈ ds, accepts c = true) ∧
        v = .tuple (ds.map fun c => .text [c]) := by
  induction n generalizing src v with
  | zero =>
    rw [List.replicate_zero, gives_seq_nil]
    simp only [List.length_eq_zero_iff]
    grind
  | succ n ih =>
    rw [List.replicate_succ, gives_seq_cons]
    constructor
    · rintro ⟨w, mid, ws, hfirst, hothers, rfl⟩
      obtain ⟨c, rfl, hc, rfl⟩ := gives_satisfy.1 hfirst
      obtain ⟨ds, rfl, rfl, hds, hws⟩ := ih.1 hothers
      cases hws
      exact ⟨c :: ds, rfl, rfl, List.forall_mem_cons.2 ⟨hc, hds⟩, rfl⟩
    · rintro ⟨ds, rfl, hlength, hds, rfl⟩
      obtain ⟨c, ds, rfl⟩ := List.exists_cons_of_length_eq_add_one hlength
      obtain ⟨hc, hds⟩ := List.forall_mem_cons.1 hds
      exact ⟨.text [c], ds ++ rest, _, gives_satisfy.2 ⟨c, rfl, hc, rfl⟩,
        ih.2 ⟨ds, rfl, Nat.succ.inj hlength, hds, rfl⟩, rfl⟩

theorem fails_replicate_satisfy {accepts : CodePoint → Bool} {n : Nat} :
    (run store limit (seq (List.replicate n (satisfy accepts m)))).Fails src ↔
      ¬ ∃ ds k, src = ds ++ k ∧ ds.length = n ∧ ∀ c ∈ ds, accepts c = true := by
  induction n generalizing src with
  | zero =>
    rw [List.replicate_zero]
    constructor
    · intro h
      exact absurd (gives_seq_nil.2 ⟨rfl, rfl⟩) h.not_success
    · intro h
      exact absurd ⟨[], src, rfl, rfl, by simp⟩ h
  | succ n ih =>
    rw [List.replicate_succ, fails_seq_cons]
    constructor
    · rintro h ⟨ds, k, rfl, hlength, hds⟩
      obtain ⟨c, ds, rfl⟩ := List.exists_cons_of_length_eq_add_one hlength
      obtain ⟨hc, hds⟩ := List.forall_mem_cons.1 hds
      rcases h with hfails | ⟨w, mid, hfirst, hothers⟩
      · rw [fails_satisfy.1 hfails c (ds ++ k) rfl] at hc
        cases hc
      · obtain ⟨c', hsrc, -, -⟩ := gives_satisfy.1 hfirst
        cases hsrc
        exact ih.1 hothers ⟨ds, k, rfl, Nat.succ.inj hlength, hds⟩
    · intro h
      -- either the first character is wrong already, or one of the others is
      by_cases hfirst : ∃ c t, src = c :: t ∧ accepts c = true
      · obtain ⟨c, t, rfl, hc⟩ := hfirst
        refine .inr ⟨.text [c], t, gives_satisfy.2 ⟨c, rfl, hc, rfl⟩, ih.2 ?_⟩
        rintro ⟨ds, k, rfl, hlength, hds⟩
        exact h ⟨c :: ds, k, rfl, congrArg Nat.succ hlength, List.forall_mem_cons.2 ⟨hc, hds⟩⟩
      · refine .inl (fails_satisfy.2 fun c t hsrc => ?_)
        exact Bool.eq_false_iff.2 fun hc => hfirst ⟨c, t, hsrc, hc⟩

/-! ## Escapes -/

theorem isCode_iff {t : Text} :
    t.IsCode ↔ t.length = 4 ∧ ∀ c ∈ t, Text.hexDigits.contains c = true := by
  simp only [Text.IsCode, hexDigits_contains_iff]

theorem gives_unicodeEscape :
    (run store limit unicodeEscape).Gives src (.success v rest) ↔
      ∃ ds : Text, src = letterU :: (ds ++ rest) ∧ ds.IsCode ∧
        v = .text [CodePoint.ofNat (hexValue ds)] := by
  have hvalue (ds : Text) : characterOf (.tuple (ds.map fun c => .text [c])) =
      .ok (.text [CodePoint.ofNat (hexValue ds)]) := by
    rw [characterOf, Value.joined_of_characters rfl, ← numberIn_eq_hexValue]
    rfl
  have hdigits {t : Text} {w : Value} :
      (run store limit (seq [hexDigit, hexDigit, hexDigit, hexDigit])).Gives t (.success w rest) ↔
        _ := gives_replicate_satisfy (n := 4)
  rw [unicodeEscape, gives_named, gives_map]
  simp only [gives_andThen, gives_character, hdigits, isCode_iff]
  constructor
  · rintro ⟨w, ⟨u, mid, ⟨rfl, rfl⟩, ds, rfl, hlength, hds, rfl⟩, hv⟩
    rw [hvalue] at hv
    cases hv
    exact ⟨ds, rfl, ⟨hlength, hds⟩, rfl⟩
  · rintro ⟨ds, rfl, ⟨hlength, hds⟩, rfl⟩
    exact ⟨_, ⟨_, _, ⟨rfl, rfl⟩, ds, rfl, hlength, hds, rfl⟩, hvalue ds⟩

theorem fails_unicodeEscape :
    (run store limit unicodeEscape).Fails src ↔
      ¬ ∃ ds k : Text, src = letterU :: (ds ++ k) ∧ ds.IsCode := by
  have hdigits {t : Text} :
      (run store limit (seq [hexDigit, hexDigit, hexDigit, hexDigit])).Fails t ↔ _ :=
    fails_replicate_satisfy (n := 4)
  rw [unicodeEscape, fails_named, fails_map]
  simp only [fails_andThen, fails_character, gives_character, hdigits, isCode_iff]
  constructor
  · rintro h ⟨ds, k, rfl, hds⟩
    rcases h with hfails | ⟨w, mid, ⟨hsrc, -⟩, hfails⟩
    · exact hfails _ rfl
    · cases hsrc
      exact hfails ⟨ds, k, rfl, hds⟩
  · intro h
    -- without the letter the first part fails, with it the digits do
    by_cases hfirst : ∃ t, src = letterU :: t
    · obtain ⟨t, rfl⟩ := hfirst
      refine .inr ⟨_, t, ⟨rfl, rfl⟩, ?_⟩
      rintro ⟨ds, k, rfl, hds⟩
      exact h ⟨ds, k, rfl, hds⟩
    · exact .inl fun t hsrc => hfirst ⟨t, hsrc⟩

theorem isKey_iff {c : CodePoint} :
    isKey y.escapes c = true ↔ ∃ t, y.escapes.lookup [c] = some t :=
  Option.isSome_iff_exists

/-- The alternatives after the escape character, in their order. -/
theorem gives_key :
    (run store limit ((satisfy (isKey y.escapes) m).map fun _ v => meaning y.escapes v)).Gives src
        (.success v rest) ↔
      ∃ c t, src = c :: rest ∧ y.escapes.lookup [c] = some t ∧ v = .text t := by
  rw [gives_map]
  simp only [gives_satisfy, isKey_iff]
  constructor
  · rintro ⟨w, ⟨c, rfl, ⟨t, ht⟩, rfl⟩, hv⟩
    simp only [meaning, ht] at hv
    cases hv
    exact ⟨c, t, rfl, ht, rfl⟩
  · rintro ⟨c, t, rfl, ht, rfl⟩
    refine ⟨_, ⟨c, rfl, ⟨t, ht⟩, rfl⟩, ?_⟩
    simp only [meaning, ht]

theorem fails_key :
    (run store limit ((satisfy (isKey y.escapes) m).map fun _ v => meaning y.escapes v)).Fails src ↔
      ∀ c t, src = c :: t → y.escapes.lookup [c] = none := by
  rw [fails_map, fails_satisfy]
  simp only [isKey, Option.isSome_eq_false_iff, Option.isNone_iff_eq_none]

/-- What is read with the escape character is a piece other than a plain character. -/
theorem gives_escaped :
    (run store limit (escaped y.escape y.escapes)).Gives src (.success v rest) ↔
      ∃ u : Piece, (∀ c, u ≠ .plain c) ∧ src = u.spelled y ++ rest ∧ v = .text u.meant ∧
        u.LegalBefore y rest := by
  rw [escaped, gives_andThen]
  simp only [gives_character, gives_oneOf_cons, gives_key, fails_key, gives_unicodeEscape,
    fails_unicodeEscape, gives_satisfy, not_gives_oneOf_nil, and_false, or_false]
  -- the alternatives are the kinds of pieces, each tried where those before it fail
  constructor
  · rintro ⟨w, mid, ⟨rfl, rfl⟩, ⟨k, t, rfl, ht, rfl⟩ |
      ⟨hkey, ⟨ds, rfl, hds, rfl⟩ | ⟨hcode, c, rfl, -, rfl⟩⟩⟩
    · exact ⟨.key k t, by simp, rfl, rfl, ht⟩
    · exact ⟨.code ds, by simp, rfl, rfl, hkey _ _ rfl, hds⟩
    · refine ⟨.self c, by simp, rfl, rfl, hkey _ _ rfl, ?_⟩
      rintro ⟨rfl, ds, k, rfl, hds⟩
      exact hcode ⟨ds, k, rfl, hds⟩
  · rintro ⟨u, hplain, rfl, rfl, hlegal⟩
    cases u with
    | plain c => exact absurd rfl (hplain c)
    | key k t => exact ⟨_, _, ⟨rfl, rfl⟩, .inl ⟨k, t, rfl, hlegal, rfl⟩⟩
    | code ds =>
      obtain ⟨hkey, hds⟩ := hlegal
      refine ⟨_, _, ⟨rfl, rfl⟩, .inr ⟨?_, .inl ⟨ds, rfl, hds, rfl⟩⟩⟩
      intro c t hct
      cases hct
      exact hkey
    | self c =>
      obtain ⟨hkey, hcode⟩ := hlegal
      refine ⟨_, _, ⟨rfl, rfl⟩, .inr ⟨?_, .inr ⟨?_, c, rfl, trivial, rfl⟩⟩⟩
      · intro c' t hct
        cases hct
        exact hkey
      · rintro ⟨ds, k, hct, hds⟩
        cases hct
        exact hcode ⟨rfl, ds, k, rfl, hds⟩

theorem fails_escaped (h : ∀ t, src ≠ y.escape :: t) :
    (run store limit (escaped y.escape y.escapes)).Fails src := by
  rw [escaped, fails_andThen, fails_character]
  exact .inl h

theorem gives_unescaped :
    (run store limit (unescaped y.quote y.escape)).Gives src (.success v rest) ↔
      ∃ c, src = c :: rest ∧ c ≠ y.quote ∧ c ≠ y.escape ∧ v = .text [c] := by
  rw [unescaped, gives_satisfy]
  simp only [Bool.and_eq_true, decide_eq_true_eq, and_assoc]

/-! ## Pieces -/

/-- The parser that is repeated between the quotes. -/
def Style.piece (y : Style) : Parser :=
  (escaped y.escape y.escapes).orElse (unescaped y.quote y.escape)

theorem gives_piece :
    (run store limit y.piece).Gives src (.success v rest) ↔
      ∃ u : Piece, src = u.spelled y ++ rest ∧ v = .text u.meant ∧ u.LegalBefore y rest := by
  rw [Style.piece, gives_orElse, gives_escaped, gives_unescaped]
  constructor
  · rintro (⟨u, -, hu⟩ | ⟨-, c, rfl, hquote, hescape, rfl⟩)
    · exact ⟨u, hu⟩
    · exact ⟨.plain c, rfl, rfl, hquote, hescape⟩
  · rintro ⟨u, rfl, rfl, hlegal⟩
    -- only a plain character is left to the second alternative
    by_cases hplain : ∃ c, u = .plain c
    · obtain ⟨c, rfl⟩ := hplain
      obtain ⟨hquote, hescape⟩ := hlegal
      refine .inr ⟨fails_escaped fun t ht => ?_, c, rfl, hquote, hescape, rfl⟩
      cases ht
      exact hescape rfl
    · exact .inl ⟨u, fun c hc => hplain ⟨c, hc⟩, rfl, rfl, hlegal⟩

theorem fails_piece (hne : y.quote ≠ y.escape) :
    (run store limit y.piece).Fails (y.quote :: rest) := by
  rw [Style.piece, fails_orElse]
  refine ⟨fails_escaped fun t ht => ?_, ?_⟩
  · exact hne (List.cons.inj ht).1
  · rw [unescaped, fails_satisfy]
    intro c t hct
    cases hct
    simp

theorem spelled_cons (y : Style) (u : Piece) (us : List Piece) :
    spelled y (u :: us) = u.spelled y ++ spelled y us := by
  rw [spelled, List.flatMap_cons]
  rfl

theorem Piece.spelled_length_pos (y : Style) (u : Piece) : 0 < (u.spelled y).length := by
  cases u <;> simp [Piece.spelled]

/-- Repeating reads legal pieces, up to what is left. -/
theorem legal_of_repeats {vs : List Value} (h : (run store limit y.piece).Repeats src vs rest) :
    ∃ us : List Piece, src = spelled y us ++ rest ∧ vs = us.map (fun u => .text u.meant) ∧
      LegalBefore y rest us := by
  induction h with
  | fails | stalls => exact ⟨[], rfl, rfl, trivial⟩
  | @next src mid left v vs hpiece _ _ ih =>
    obtain ⟨u, rfl, rfl, hlegal⟩ := gives_piece.1 hpiece
    obtain ⟨us, rfl, rfl, hus⟩ := ih
    refine ⟨u :: us, ?_, rfl, hlegal, hus⟩
    rw [spelled_cons, List.append_assoc]

/-- Repeating reads all legal pieces before what is no piece. -/
theorem repeats_of_legal (hstop : (run store limit y.piece).Fails rest) {us : List Piece}
    (h : LegalBefore y rest us) :
    (run store limit y.piece).Repeats (spelled y us ++ rest) (us.map fun u => .text u.meant)
      rest := by
  induction us with
  | nil => exact .fails hstop
  | cons u us ih =>
    obtain ⟨hu, hus⟩ := h
    have hpos := u.spelled_length_pos y
    rw [spelled_cons, List.append_assoc]
    refine .next (gives_piece.2 ⟨u, rfl, rfl, hu⟩) ?_ (ih hus)
    simp only [List.length_append]
    omega

theorem joined_meant (us : List Piece) :
    (Value.list (us.map fun u => .text u.meant)).joined = .ok (meant us) := by
  have h : (Value.list (us.map fun u => .text u.meant)).items? =
      some ((us.map Piece.meant).map .text) := by
    rw [List.map_map]
    rfl
  rw [Value.joined_of_items h, ← List.flatMap_def]
  rfl

/-- What stands between the quotes. -/
def Style.content (y : Style) : Parser := (many y.piece).map Value.Function.joined

theorem gives_content :
    (run store limit y.content).Gives src (.success v rest) ↔
      ∃ vs t, (run store limit y.piece).Repeats src vs rest ∧ (Value.list vs).joined = .ok t ∧
        v = .text t := by
  rw [Style.content, gives_map]
  simp only [gives_many, Value.Function.joined]
  constructor
  · rintro ⟨w, ⟨vs, rfl, hvs⟩, hv⟩
    cases hjoined : (Value.list vs).joined with
    | error fault =>
      rw [hjoined] at hv
      cases hv
    | ok t =>
      rw [hjoined] at hv
      cases hv
      exact ⟨vs, t, hvs, hjoined, rfl⟩
  · rintro ⟨vs, t, hvs, ht, rfl⟩
    refine ⟨_, ⟨vs, rfl, hvs⟩, ?_⟩
    rw [ht]
    rfl

theorem gives_quotedString (hne : y.quote ≠ y.escape) :
    (run store limit y.parser).Gives src (.success v rest) ↔
      ∃ us : List Piece, src = y.quote :: (spelled y us ++ y.quote :: rest) ∧
        v = .text (meant us) ∧ LegalBefore y (y.quote :: rest) us := by
  show (run store limit ((between (character y.quote) y.content (character y.quote)).named _)).Gives
    src _ ↔ _
  rw [gives_named, gives_between]
  simp only [gives_character, gives_content]
  constructor
  · rintro ⟨-, before, -, after, ⟨rfl, -⟩, ⟨vs, t, hvs, ht, rfl⟩, rfl, -⟩
    obtain ⟨us, rfl, rfl, hlegal⟩ := legal_of_repeats hvs
    rw [joined_meant] at ht
    cases ht
    exact ⟨us, rfl, rfl, hlegal⟩
  · rintro ⟨us, rfl, rfl, hlegal⟩
    exact ⟨_, _, _, _, ⟨rfl, rfl⟩,
      ⟨_, _, repeats_of_legal (fails_piece hne) hlegal, joined_meant us, rfl⟩, rfl, rfl⟩

/-! ## Quoting a text -/

end Parselet.QuotedString
