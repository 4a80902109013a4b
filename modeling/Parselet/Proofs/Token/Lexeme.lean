import Parselet.Token.Number
import Parselet.Token.Name
import Parselet.Proofs.Parser.Gives
import Parselet.Proofs.Text.Span

/-!
Tokens: repeated characters of a class, and parsers that take the white space after them.
-/

namespace Parselet

open Text

/-- Repeating a step that reads a character of a class reads the longest run of the class. -/
theorem Step.repeats_class {p : Step} {accepts : CodePoint → Bool}
    (hgives : ∀ {src v rest},
      p.Gives src (.success v rest) ↔ ∃ c, src = c :: rest ∧ accepts c = true ∧ v = .text [c])
    (hfails : ∀ {src}, p.Fails src ↔ ∀ c t, src = c :: t → accepts c = false) (src : Text) :
    p.Repeats src ((src.takeWhile accepts).map fun c => .text [c]) (src.dropWhile accepts) := by
  -- an iteration is one character, so the induction follows `takeWhile`
  induction src with
  | nil => exact .fails (hfails.2 fun c t h => by cases h)
  | cons c t ih =>
    by_cases hc : accepts c = true
    · rw [List.takeWhile_cons_of_pos hc, List.dropWhile_cons_of_pos hc]
      exact .next (hgives.2 ⟨c, rfl, hc, rfl⟩) (by simp) ih
    · rw [List.takeWhile_cons_of_neg hc, List.dropWhile_cons_of_neg hc]
      refine .fails (hfails.2 fun d u h => ?_)
      cases h
      exact Bool.eq_false_of_not_eq_true hc

/-- Digits are no sign. -/
theorem Text.splitSign_append {ds : Text} (hds : IsDigits ds) (rest : Text) :
    splitSign (ds ++ rest) = (false, ds ++ rest) := by
  obtain ⟨d, ds, rfl⟩ := List.exists_cons_of_ne_nil hds.1
  have hd : d.isDigit = true := hds.2 d (List.mem_cons_self ..)
  have hminus : d ≠ CodePoint.ofChar '-' := by
    rintro rfl
    exact absurd hd (by decide)
  have hplus : d ≠ CodePoint.ofChar '+' := by
    rintro rfl
    exact absurd hd (by decide)
  rw [List.cons_append, splitSign, if_neg hminus, if_neg hplus]

namespace Value

variable {vs : List Value} {ts : List Text}

theorem concatFrom_texts (i : Nat) (ts : List Text) :
    concatFrom i (ts.map .text) = .ok ts.flatten := by
  induction ts generalizing i with
  | nil => rfl
  | cons t ts ih =>
    rw [List.map_cons, concatFrom, ih]
    rfl

theorem joined_of_items {v : Value} {ts : List Text} (h : v.items? = some (ts.map .text)) :
    v.joined = .ok ts.flatten := by
  rw [joined, h]
  exact concatFrom_texts 0 ts

theorem joined_of_characters {v : Value} {t : Text}
    (h : v.items? = some (t.map fun c => .text [c])) : v.joined = .ok t := by
  have hmap : (t.map fun c => Value.text [c]) = (t.map fun c => [c]).map .text := by
    rw [List.map_map]
    rfl
  rw [joined_of_items (h.trans (congrArg some hmap)), ← List.flatMap_def, List.flatMap_singleton']

theorem wellGrouped_digits {ds : Text} (hds : IsDigits ds) : wellGrouped ds = true := by
  obtain ⟨hne, hall⟩ := hds
  induction ds with
  | nil => exact absurd rfl hne
  | cons c ds ih =>
    obtain ⟨hc, hall⟩ := List.forall_mem_cons.1 hall
    cases ds with
    | nil => exact hc
    | cons d ds =>
      rw [wellGrouped, hc, Bool.true_or, Bool.true_and]
      exact ih (List.cons_ne_nil d ds) hall

/-- Digits within the limit are never refused, so whoever has counted them may convert them. -/
theorem readInt_digits {limit : Limit} {ds : Text} (hds : IsDigits ds)
    (hallows : limit.allows ds.length = true) : readInt limit ds = .ok (Text.positional ds) := by
  have hmargin : ds.dropWhile isMargin = ds := by
    refine Avoids.dropWhile_eq_self fun c hc => ?_
    rw [isMargin, CodePoint.not_isSpace_of_isDigit (hds.2 c (List.mem_of_mem_head? hc)),
      Bool.false_and]
  have hsign : Text.splitSign ds = (false, ds) := by
    simpa using Text.splitSign_append hds []
  have hrun : ∀ c ∈ ds, isDigitOrUnderscore c = true := fun c hc => by
    rw [isDigitOrUnderscore, hds.2 c hc, Bool.true_or]
  have htake : ds.takeWhile isDigitOrUnderscore = ds := List.takeWhile_eq_self_iff.2 hrun
  have hdrop : ds.dropWhile isDigitOrUnderscore = [] := List.dropWhile_eq_nil_iff.2 hrun
  have hfilter : ds.filter CodePoint.isDigit = ds := List.filter_eq_self.2 hds.2
  have hhead : ds.head?.any CodePoint.isDigit = true := by
    obtain ⟨c, ds, rfl⟩ := List.exists_cons_of_ne_nil hds.1
    exact hds.2 c (List.mem_cons_self ..)
  simp only [readInt, hmargin, hsign, htake, hdrop, hfilter, hhead, wellGrouped_digits hds]
  cases limit with
  | none => rfl
  | some bound =>
    have hle : ¬ bound < ds.length := Nat.not_lt.2 (of_decide_eq_true hallows)
    simp only [if_neg hle]
    rfl

theorem map_eq_of_forall₂ {f : Value → Value} (h : List.Forall₂ (fun v t => f v = .text t) vs ts) :
    vs.map f = ts.map .text := by
  induction h with
  | nil => rfl
  | cons hv _ ih => rw [List.map_cons, List.map_cons, hv, ih]

theorem joined_of_forall₂ (h : List.Forall₂ (fun v t => v = .text t) vs ts) :
    (list vs).joined = .ok ts.flatten := by
  refine joined_of_items (congrArg some ?_)
  rw [← List.map_id vs]
  exact map_eq_of_forall₂ h

theorem joinedParts_of_forall₂ (h : List.Forall₂ (fun v t => v.orEmpty = .text t) vs ts) :
    (tuple vs).joinedParts = .ok ts.flatten := by
  show concatFrom 0 (vs.map orEmpty) = .ok ts.flatten
  rw [map_eq_of_forall₂ h, concatFrom_texts]

end Value

namespace Parser

variable {store : Store} {limit : Limit} {p : Parser} {src rest m s : Text} {v : Value}

theorem gives_many_satisfy {accepts : CodePoint → Bool} :
    (run store limit (many (satisfy accepts m))).Gives src (.success v rest) ↔
      v = .list ((src.takeWhile accepts).map fun c => .text [c]) ∧
        rest = src.dropWhile accepts := by
  have hrepeats : (run store limit (satisfy accepts m)).Repeats src _ _ :=
    Step.repeats_class gives_satisfy fails_satisfy src
  rw [gives_many]
  constructor
  · rintro ⟨vs, rfl, h⟩
    obtain ⟨rfl, rfl⟩ := h.unique hrepeats
    exact ⟨rfl, rfl⟩
  · rintro ⟨rfl, rfl⟩
    exact ⟨_, rfl, hrepeats⟩

theorem gives_skipWhitespace :
    (run store limit skipWhitespace).Gives src (.success v rest) ↔
      v = .nothing ∧ rest = src.trimStart := by
  rw [skipWhitespace, gives_named, gives_map]
  constructor
  · rintro ⟨w, hw, hv⟩
    cases hv
    exact ⟨rfl, (gives_many_satisfy.1 hw).2⟩
  · rintro ⟨rfl, rfl⟩
    exact ⟨_, gives_many_satisfy.2 ⟨rfl, rfl⟩, rfl⟩

theorem skipWhitespace_never_fails : ¬ (run store limit skipWhitespace).Fails src := by
  rw [skipWhitespace, fails_named, fails_map]
  exact many_never_fails

theorem gives_lexeme :
    (run store limit (lexeme p)).Gives src (.success v rest) ↔
      ∃ mid, (run store limit p).Gives src (.success v mid) ∧ rest = mid.trimStart := by
  rw [lexeme, gives_followedBy]
  simp only [gives_skipWhitespace]
  grind

theorem fails_lexeme : (run store limit (lexeme p)).Fails src ↔ (run store limit p).Fails src := by
  rw [lexeme, fails_followedBy]
  simp only [skipWhitespace_never_fails]
  grind

theorem gives_symbol :
    (run store limit (symbol s)).Gives src (.success v rest) ↔
      ∃ mid, src = s ++ mid ∧ v = .text s ∧ rest = mid.trimStart := by
  rw [symbol, gives_lexeme]
  simp only [gives_string]
  grind

theorem fails_symbol : (run store limit (symbol s)).Fails src ↔ ¬ s <+: src := by
  rw [symbol, fails_lexeme, fails_string]

theorem applySign_pair (w : Value) (k : Int) :
    applySign (.tuple [w, .int k]) = .ok (.int (if w = .text "-" then -k else k)) := by
  change (if w = .text "-" then Except.ok (Value.int (-k)) else .ok (.int k)) = _
  split <;> rfl

theorem nameOf_pair {c t : Text} {w : Value} (hw : w.joined = .ok t) :
    nameOf (.tuple [.text c, w]) = .ok (.text (c ++ t)) := by
  change (w.joined >>= fun t => Except.ok (Value.text (c ++ t))) = _
  rw [hw]
  rfl

/-- What the limit allows is converted, since digits can be read whenever they are not too many. -/
theorem integerOf_characters (limit : Limit) {ds : Text} (hds : IsDigits ds) :
    integerOf limit (.list (ds.map fun c => .text [c])) =
      if limit.allows ds.length then Parser.pure limit (.int (Text.positional ds))
      else .ok (fail ("Integer literal too long (" ++ Text.ofNat ds.length ++ " digits)")) := by
  have hsize : (Value.list (ds.map fun c => .text [c])).size = .ok ds.length := by
    rw [Value.size, List.length_map]
  rw [integerOf, hsize, Value.joined_of_characters rfl]
  by_cases hallows : limit.allows ds.length = true
  · rw [if_pos hallows]
    refine (if_pos hallows).trans ?_
    change (Value.readInt limit ds >>= fun n => Parser.pure limit (.int n)) = _
    rw [Value.readInt_digits hds hallows]
    rfl
  · rw [if_neg hallows]
    exact if_neg hallows

/-- What is made of digits is the parser of an integer, or one that fails. -/
theorem integerOf_eq_ok {k : Parser} (h : integerOf limit v = .ok k) :
    (∃ n, Parser.pure limit (.int n) = .ok k) ∨ ∃ m, k = fail m := by
  obtain ⟨count, -, h⟩ := except_bind_eq_ok_iff.1 h
  split at h
  · obtain ⟨t, -, h⟩ := except_bind_eq_ok_iff.1 h
    obtain ⟨n, -, h⟩ := except_bind_eq_ok_iff.1 h
    exact .inl ⟨n, h⟩
  · cases h
    exact .inr ⟨_, rfl⟩

theorem gives_many1_digit :
    (run store limit (many1 digit)).Gives src (.success v rest) ↔
      src.takeWhile CodePoint.isDigit ≠ [] ∧
        v = .list ((src.takeWhile CodePoint.isDigit).map fun c => .text [c]) ∧
          rest = src.dropWhile CodePoint.isDigit := by
  refine run_gives.trans (Step.gives_nonempty_success.trans ?_)
  rw [show (run store limit (many digit)).Gives src (.success v rest) ↔ _ from gives_many_satisfy]
  constructor
  · rintro ⟨⟨rfl, rfl⟩, hne⟩
    exact ⟨fun h => hne (by rw [h]; rfl), rfl, rfl⟩
  · rintro ⟨hne, rfl, rfl⟩
    exact ⟨⟨rfl, rfl⟩, by simpa using hne⟩

theorem gives_many1_digit_run {ds : Text} (hds : IsDigits ds)
    (hrest : Avoids CodePoint.isDigit rest) :
    (run store limit (many1 digit)).Gives (ds ++ rest)
      (.success (.list (ds.map fun c => .text [c])) rest) := by
  rw [gives_many1_digit, takeWhile_append_of_avoids hds.2 hrest,
    dropWhile_append_of_avoids hds.2 hrest]
  exact ⟨hds.1, rfl, rfl⟩

theorem gives_many1_digit_failure (h : Avoids CodePoint.isDigit src) :
    (run store limit (many1 digit)).Gives src
      (.failure "Expected at least one match" (some src)) := by
  refine run_gives.2 (Step.gives_nonempty_failure.2 (.inr ⟨⟨src, ?_⟩, rfl, rfl⟩))
  refine gives_many_satisfy.2 ⟨?_, h.dropWhile_eq_self.symm⟩
  rw [h.takeWhile_eq_nil]
  rfl

/-- An integer stands for a run of digits that ends where no digit follows. -/
theorem digits_of_gives_integer (h : (run store limit integer).Gives src (.success v rest)) :
    ∃ ds, IsDigits ds ∧ Avoids CodePoint.isDigit rest ∧ src = ds ++ rest ∧
      v = .int (decimalValue ds) := by
  rw [integer, gives_named, gives_flatMap] at h
  obtain ⟨w, mid, k, hdigits, hk, hgives⟩ := h
  obtain ⟨hne, rfl, rfl⟩ := gives_many1_digit.1 hdigits
  have hall : ∀ c ∈ src.takeWhile CodePoint.isDigit, c.isDigit = true :=
    fun c hc => List.mem_takeWhile_imp hc
  rw [integerOf_characters limit ⟨hne, hall⟩] at hk
  split at hk
  · cases (gives_of_pure hk).1 hgives
    rw [positional_eq_decimalValue hall]
    exact ⟨_, ⟨hne, hall⟩, avoids_dropWhile _ _, List.takeWhile_append_dropWhile.symm, rfl⟩
  · cases hk
    cases gives_fail.1 hgives

theorem gives_integer_digits {ds : Text} (hds : IsDigits ds)
    (hrest : Avoids CodePoint.isDigit rest) :
    (run store none integer).Gives (ds ++ rest) (.success (.int (decimalValue ds)) rest) := by
  rw [integer, gives_named, gives_flatMap]
  refine ⟨_, _, _, gives_many1_digit_run hds hrest, integerOf_characters none hds, ?_⟩
  rw [positional_eq_decimalValue hds.2]
  exact (gives_of_pure rfl).2 rfl

theorem fails_integer (h : Avoids CodePoint.isDigit src) : (run store limit integer).Fails src := by
  rw [integer, fails_named, fails_flatMap]
  exact .inl ⟨_, _, gives_many1_digit_failure h⟩

end Parser

end Parselet
