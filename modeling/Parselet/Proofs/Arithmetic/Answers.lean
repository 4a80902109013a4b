import Parselet.Proofs.Arithmetic.Reading
import Parselet.Proofs.Parser.Ends
import Parselet.Proofs.Token.Conversion

/-!
Whether arithmetic answers. Its runs always come to an end, and the only thing they are given up for
is a chain whose value has more digits than the limit allows: a parser of that value is made, whose
name shows it.
-/

namespace Parselet

/-! ## Tokens -/

namespace Parser

variable {store : Store} {limit : Limit} {p : Parser} {E : Fault → Prop} {Q : Value → Prop}
  {src m s : Text} {o : Operator}

theorem run_safe_of_yields (hp : ∀ n, Yields store { limit } n Q p) (src : Text) :
    (run store limit p src).Safe (Result.Holds Q) := by
  obtain ⟨d, hd⟩ := run_eventually store limit p src
  have hyields : (runTo store { limit } d p).Yields Q :=
    ((hp d).call (Nat.le_refl d)).mono fun _ hv => hv.1
  have hsafe := hyields src
  rwa [Run.Safe, hd d (Nat.le_refl d)] at hsafe

theorem ends_iterate_satisfy {accepts : CodePoint → Bool} :
    (Step.iterate (run store limit (satisfy accepts m)) src).Ends E :=
  Step.ends_iterate (I := fun _ => True) (fun _ _ => endsOn_satisfy) (fun _ _ _ _ _ _ => trivial)
    trivial

theorem endsOn_skipWhitespace : (run store limit skipWhitespace).EndsOn E src :=
  endsOn_named.2 (endsOn_map (endsOn_many ends_iterate_satisfy) nofun)

theorem endsOn_lexeme (hp : (run store limit p).EndsOn E src) :
    (run store limit (lexeme p)).EndsOn E src :=
  endsOn_followedBy hp fun _ _ _ => endsOn_skipWhitespace

theorem endsOn_symbol : (run store limit (symbol s)).EndsOn E src :=
  endsOn_lexeme endsOn_string

/-- The limit is checked before digits are converted. -/
theorem endsOn_integer : (run store limit integer).EndsOn E src := by
  have hends : (run store limit integer).Halts src := by
    refine endsOn_named.2 (endsOn_flatMap (endsOn_many1 ends_iterate_satisfy)
      (fun _ _ _ _ _ => trivial) fun v rest k hgives hk => ?_)
    obtain ⟨hne, rfl, -⟩ := gives_many1_digit.1 hgives
    rw [integerOf_characters limit ⟨hne, fun c hc => List.mem_takeWhile_imp hc⟩] at hk
    split at hk
    · exact endsOn_of_pure hk
    · cases hk
      exact endsOn_fail
  exact hends.of_safe (run_safe_of_yields (fun _ => yields_integer) src)

theorem endsOn_operatorSymbol : (run store limit (operatorSymbol s o)).EndsOn E src :=
  endsOn_map endsOn_symbol nofun

end Parser

namespace Arithmetic

open Parselet.Parser Parselet.Text

variable {store : Store} {limit : Limit} {f : Forward} {operand expr : Parser}
  {src mid rest : Text} {v : Value} {r : Rank} {fault : Fault} {n : Nat}

theorem endsOn_symbols {E : Fault → Prop} : (run store limit r.symbols).EndsOn E src := by
  refine endsOn_oneOf fun p hp => ?_
  obtain ⟨x, -, rfl⟩ := List.mem_map.1 hp
  exact endsOn_operatorSymbol

/-! ## Chains that are too long to write -/

/-- The fault is that an integer is too long to be written, and some part of `src` is a chain whose
value is that long. -/
def Overlong (limit : Limit) (src : Text) (fault : Fault) : Prop :=
  ∃ bound r t i, limit = some bound ∧ fault = .tooLongToWrite bound ∧ t <:+: src ∧
    Denotes (.chain r) t (some i) ∧ bound < digitCount i

theorem Overlong.of_suffix (h : Overlong limit mid fault) (hmid : mid <:+ src) :
    Overlong limit src fault := by
  obtain ⟨bound, r, t, i, hlimit, hfault, ht, hdenotes, hi⟩ := h
  exact ⟨bound, r, t, i, hlimit, hfault, ht.trans hmid.isInfix, hdenotes, hi⟩

theorem pure_eq_error {i : Int} (h : Parser.pure limit (.int i) = .error fault) :
    ∃ bound, limit = some bound ∧ fault = .tooLongToWrite bound ∧ bound < digitCount i := by
  have hfits : ¬ (Value.int i).fits limit = true := by
    intro hfits
    obtain ⟨name, hname⟩ := pure_of_fits hfits
    rw [hname] at h
    cases h
  obtain ⟨bound, rfl, hwritten⟩ := Value.written?_of_not_fits hfits
  rw [Parser.pure, hwritten] at h
  cases h
  rw [Value.fits_int_iff, Limit.allows, decide_eq_true_eq] at hfits
  exact ⟨bound, rfl, rfl, Nat.lt_of_not_le hfits⟩

/-- A chain of operators and integers is given up only when its value has been computed. -/
theorem evaluate_eq_error {a : Int} {vs : List Value} {x : Option Int}
    (hx : applyAll a vs = .ok x) (h : evaluate limit (.tuple [.int a, .list vs]) = .error fault) :
    ∃ i, x = some i ∧ Parser.pure limit (.int i) = .error fault := by
  cases x with
  | some i => exact ⟨i, rfl, (evaluate_of_applyAll hx).symm.trans h⟩
  | none => cases (evaluate_of_applyAll_none hx).symm.trans h

theorem endsOn_of_evaluate {E : Fault → Prop} {k : Parser} (h : evaluate limit v = .ok k) :
    (run store limit k).EndsOn E src := by
  obtain ⟨_, _, -, ⟨i, -, hpure⟩ | ⟨-, rfl⟩⟩ := evaluate_eq_ok h
  · exact endsOn_of_pure hpure
  · exact endsOn_fail

/-! ## Chains and factors -/

/-- On inputs of at most `n` characters, `p` ends, and is given up only for chains that are too long
to write. -/
def Answers (store : Store) (limit : Limit) (p : Parser) (n : Nat) : Prop :=
  ∀ src : Text, src.length ≤ n → (run store limit p).EndsOn (Overlong limit src) src

theorem Answers.endsOn_suffix (hp : Answers store limit operand n) (hsrc : src.length ≤ n)
    (hmid : mid <:+ src) : (run store limit operand).EndsOn (Overlong limit src) mid :=
  (hp mid (hmid.length_le.trans hsrc)).mono fun _ h => h.of_suffix hmid

theorem suffix_of_gives_symbols (h : (run store limit r.symbols).Gives src (.success v rest)) :
    rest <:+ src := by
  obtain ⟨s, o, k, -, rfl, -, rfl⟩ := gives_symbols.1 h
  exact (List.dropWhile_suffix _).trans (List.suffix_append s k)

theorem suffix_of_sound {ph : Phrase} (hp : Sound store limit operand ph n) (hsrc : src.length ≤ n)
    (h : (run store limit operand).Gives src (.success v rest)) : rest <:+ src := by
  obtain ⟨t, i, -, rfl, -⟩ := hp hsrc h
  exact List.suffix_append t rest

/-- What an iteration of a chain's tail leaves is an end of what it stands before. -/
theorem suffix_of_gives_pair (hsound : Sound store limit operand r.operand n)
    (hsrc : src.length ≤ n)
    (h : (run store limit (seq [r.symbols, operand])).Gives src (.success v rest)) :
    rest <:+ src := by
  obtain ⟨w, mid, w', hsymbol, hoperand, -⟩ := gives_pair.1 h
  have hmid := suffix_of_gives_symbols hsymbol
  exact (suffix_of_sound hsound (hmid.length_le.trans hsrc) hoperand).trans hmid

/-- The tail of a chain consists of operators and integers, which can be computed with. -/
theorem applyAll_of_repeats (hsound : Sound store limit operand r.operand n) {vs : List Value}
    (h : (run store limit (seq [r.symbols, operand])).Repeats mid vs rest)
    (hmid : mid.length ≤ n) (a : Int) : ∃ x, applyAll a vs = .ok x := by
  induction h generalizing a with
  | fails | stalls => exact ⟨some a, rfl⟩
  | @next src mid left v vs hpair hlt _ ih =>
    obtain ⟨w, mid', w', hsymbol, hoperand, rfl⟩ := gives_pair.1 hpair
    have hle := (suffix_of_gives_symbols hsymbol).length_le
    obtain ⟨s, o, k, -, -, rfl, -⟩ := gives_symbols.1 hsymbol
    obtain ⟨t, j, rfl, -, -⟩ := hsound (hle.trans hmid) hoperand
    cases ho : o.apply a j with
    | none => exact ⟨none, applyAll_cons_of_none ho vs⟩
    | some c =>
      rw [applyAll_cons_of_some ho]
      exact ih (hlt.le.trans hmid) c

theorem answers_many_pair (hsound : Sound store limit operand r.operand n)
    (hends : Answers store limit operand n) :
    Answers store limit (many (seq [r.symbols, operand])) n := by
  intro src hsrc
  -- the loop only ever stands before ends of its input
  refine endsOn_many (Step.ends_iterate (I := fun mid => mid <:+ src) (fun mid hmid => ?_)
    (fun mid v rest hmid hpair _ => ?_) List.suffix_rfl)
  · refine endsOn_pair endsOn_symbols fun w rest hsymbol => ?_
    exact hends.endsOn_suffix hsrc ((suffix_of_gives_symbols hsymbol).trans hmid)
  · exact (suffix_of_gives_pair hsound (hmid.length_le.trans hsrc) hpair).trans hmid

theorem answers_chain (hsound : Sound store limit operand r.operand n)
    (hends : Answers store limit operand n) :
    Answers store limit (chain operand r.symbols) n := by
  intro src hsrc
  refine endsOn_flatMap ?_ (fun v rest fault hseq hfault => ?_) fun v rest k _ hk =>
    endsOn_of_evaluate hk
  · refine endsOn_pair (hends src hsrc) fun w mid hoperand => ?_
    exact (answers_many_pair hsound hends).endsOn_suffix hsrc
      (suffix_of_sound hsound hsrc hoperand)
  -- the value that cannot be written is that of the text that was read
  · obtain ⟨w, mid, w', hoperand, hmany, rfl⟩ := gives_pair.1 hseq
    obtain ⟨vs, rfl, hvs⟩ := gives_many.1 hmany
    obtain ⟨t, a, rfl, rfl, ht⟩ := hsound hsrc hoperand
    have hmid : mid.length ≤ n := (List.suffix_append t mid).length_le.trans hsrc
    obtain ⟨x, hi⟩ := applyAll_of_repeats hsound hvs hmid a
    obtain ⟨i, rfl, hpure⟩ := evaluate_eq_error hi hfault
    obtain ⟨bound, hlimit, rfl, hlong⟩ := pure_eq_error hpure
    obtain ⟨u, rfl, hu⟩ := tail_of_repeats hsound hvs hmid hi
    rw [← List.append_assoc]
    exact ⟨bound, r, t ++ u, i, hlimit, rfl, (List.prefix_append _ rest).isInfix, .chain ht hu,
      hlong⟩

/-- A parenthesis is consumed before the expression inside it is read. -/
theorem answers_factor (hends : ∀ k < n, Answers store limit expr k) :
    Answers store limit (factor expr) n := by
  intro src hsrc
  refine endsOn_orElse (endsOn_lexeme endsOn_integer) (endsOn_between endsOn_symbol
    (fun v rest hopen => ?_) fun _ _ _ _ _ _ => endsOn_symbol)
  obtain ⟨k, rfl, -, rfl⟩ := gives_symbol.1 hopen
  have hne : Text.ofString "(" ≠ [] := List.cons_ne_nil _ _
  have hlt : k.trimStart.length < n := (length_trimStart_lt_append hne k).trans_le hsrc
  refine (hends _ hlt _ le_rfl).mono fun _ h => h.of_suffix ?_
  exact (List.dropWhile_suffix _).trans (List.suffix_append _ k)

theorem sound_operandParser (hf : store.target? f = some (Parser.sum (forward f))) (r : Rank)
    (n : Nat) : Sound store limit (r.operandParser (forward f)) r.operand n := by
  have hfactor : Sound store limit (factor (forward f)) .factor n :=
    sound_factor fun k _ => sound_expr hf k
  cases r with
  | product => exact @hfactor
  | sum =>
    show Sound store limit (Rank.product.parser (forward f)) (.chain .product) n
    rw [Rank.parser_eq_chain]
    exact sound_chain hfactor

theorem answers_operandParser (hf : store.target? f = some (Parser.sum (forward f)))
    (hends : ∀ k < n, Answers store limit (forward f) k) (r : Rank) :
    Answers store limit (r.operandParser (forward f)) n := by
  have hfactor : Answers store limit (factor (forward f)) n := answers_factor hends
  cases r with
  | product => exact hfactor
  | sum =>
    show Answers store limit (Rank.product.parser (forward f)) n
    rw [Rank.parser_eq_chain]
    exact answers_chain (sound_operandParser hf .product n) hfactor

theorem answers_expr (hf : store.target? f = some (Parser.sum (forward f))) (n : Nat) :
    Answers store limit (forward f) n := by
  induction n using Nat.strongRecOn with
  | ind n ih =>
    have hsum : Answers store limit (Rank.sum.parser (forward f)) n := by
      rw [Rank.parser_eq_chain]
      exact answers_chain (sound_operandParser hf .sum n) (answers_operandParser hf ih .sum)
    exact fun src hsrc => (endsOn_forward hf).2 (hsum src hsrc)

/-- Without a limit, a repetition of operators and operands always ends. -/
theorem exists_repeats (hf : store.target? f = some (Parser.sum (forward f))) (r : Rank)
    (src : Text) : ∃ vs rest,
      (run store none (seq [r.symbols, r.operandParser (forward f)])).Repeats src vs rest := by
  have hanswers : Answers store none (many (seq [r.symbols, r.operandParser (forward f)]))
      src.length :=
    answers_many_pair (sound_operandParser hf r src.length)
      (answers_operandParser hf (fun k _ => answers_expr hf k) r)
  have hnone (fault : Fault) (h : Overlong none src fault) : False := by
    obtain ⟨bound, _, _, _, hlimit, -⟩ := h
    cases hlimit
  obtain ⟨result, hresult⟩ := Run.Ends.exists_value ((hanswers src le_rfl).mono hnone)
  cases result with
  | failure m s => exact absurd ⟨m, s, hresult⟩ many_never_fails
  | success v rest =>
    obtain ⟨vs, rfl, hvs⟩ := gives_many.1 hresult
    exact ⟨vs, rest, hvs⟩

/-! ## The parser that is built -/

theorem reader_endsOn (hf : store.target? f = some (Parser.sum (forward f))) (src : Text) :
    (run store limit (reader f)).EndsOn (Overlong limit src) src := by
  refine endsOn_named.2 (endsOn_andThen endsOn_skipWhitespace fun v rest hspace => ?_)
  obtain ⟨-, rfl⟩ := gives_skipWhitespace.1 hspace
  exact (answers_expr hf src.length).endsOn_suffix le_rfl (List.dropWhile_suffix _)

/-- Arithmetic answers every input with a result, unless some part of the input is a chain whose
value has more digits than the limit allows; then it may be given up for that. -/
theorem arithmetic_answers_or_overlong (store₀ : Store) :
    ∃ p store, arithmetic.run store₀ = .ok (p, store) ∧ ∀ limit src,
      (∃ result, p.EndsIn store limit src (.value result)) ∨
        ∃ fault, p.EndsIn store limit src (.raised fault) ∧ Overlong limit src fault := by
  obtain ⟨f, store, hbuild, hf⟩ := arithmetic_builds store₀
  refine ⟨reader f, store, hbuild, fun limit src => ?_⟩
  simp only [endsIn_iff]
  have hends : (run store limit (reader f)).EndsOn (Overlong limit src) src := reader_endsOn hf src
  cases hend : (run store limit (reader f) src).ending with
  | value result => exact .inl ⟨result, rfl⟩
  | raised fault => exact .inr ⟨fault, rfl, Run.Ends.of_raised hends hend⟩
  | unfinished => exact absurd hend (Run.Ends.not_unfinished hends)

/-- A product of 641 digits, of factors that may both be written. -/
theorem arithmetic_gives_up_on_product :
    ∃ p store, arithmetic.run Store.empty = .ok (p, store) ∧
      p.EndsIn store (some 640) ("1" ++ List.replicate 639 (CodePoint.ofChar '0') ++ "*10")
        (.raised (.tooLongToWrite 640)) :=
  ⟨_, _, rfl, EndsIn.of_parse (d := 60) (by decide +kernel) (by simp)⟩

end Arithmetic

end Parselet
