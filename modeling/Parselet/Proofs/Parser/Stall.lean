import Parselet.Proofs.Parser.Built
import Parselet.Proofs.Parser.Calls
import Parselet.Proofs.Step.Stall

/-!
Parsers that may succeed without consuming anything. Which ones may is read off their bodies; that
no others do rests on custom parsers leaving an end of their input.
-/

namespace Parselet

/-! ## Leaving an end of the input -/

theorem Parser.leavesEnd_all {C : Parser → Step} {ps : List Parser}
    (h : ∀ p ∈ ps, (C p).LeavesEnd) : ∀ k ∈ ps.map C, k.LeavesEnd := by
  intro k hk
  obtain ⟨p, hp, rfl⟩ := List.mem_map.1 hk
  exact h p hp

/-- A body leaves an end of its input as the parsers it calls do. -/
theorem Body.eval_leavesEnd {store : Store} {limit : Limit} {call : Parser → Step} {b : Body}
    (hcall : ∀ q, b.Has q → (call q).LeavesEnd)
    (hforward : ∀ f q, b = .forward f → store.target? f = some q → (call q).LeavesEnd)
    (hcustom : ∀ f, b = .custom f → ∀ src v rest, f src = .ok (.success v rest) → rest <:+ src) :
    (b.eval store limit call).LeavesEnd := by
  cases b with
  | pure v => exact (Step.staysWithin_pure v).leavesEnd
  | fail m => exact (Step.staysWithin_fail m).leavesEnd
  | eof => exact Step.staysWithin_eof.leavesEnd
  | character c => exact (Step.staysWithin_satisfy _ _).leavesEnd
  | satisfy accepts m => exact (Step.staysWithin_satisfy _ _).leavesEnd
  | string t => exact (Step.staysWithin_string t).leavesEnd
  | anycase t => exact (Step.staysWithin_anycase t).leavesEnd
  | regex m => exact (Step.staysWithin_regex m).leavesEnd
  | map p f => exact (hcall p rfl).map _
  | flatMap p next =>
    refine (hcall p (.inl rfl)).flatMap fun v k hk => ?_
    obtain ⟨q, hq, rfl⟩ := except_map_eq_ok_iff.1 hk
    exact hcall q (.inr ⟨limit, v, hq⟩)
  | orElse p q => exact (hcall p (.inl rfl)).orElse (hcall q (.inr rfl))
  | many p => exact (hcall p rfl).many
  | nonempty p => exact (hcall p rfl).nonempty
  | optional p => exact (hcall p rfl).optional
  | sepBy content separator =>
    exact (hcall content (.inl rfl)).sepBy (hcall separator (.inr rfl))
  | seq ps => exact Step.LeavesEnd.seq (Parser.leavesEnd_all hcall)
  | oneOf ps => exact Step.LeavesEnd.oneOf (Parser.leavesEnd_all hcall)
  | lookahead p => exact Step.leavesEnd_lookahead _
  | inverted p => exact Step.leavesEnd_inverted _ _
  | forward f =>
    simp only [eval]
    split
    · next q hq => exact hforward f q rfl hq
    · exact (Step.staysWithin_raise _).leavesEnd
  | custom f => exact Step.leavesEnd_custom (hcustom f rfl)

namespace Store

variable {store : Store} {p q : Parser}

/-- The custom parsers that a run of `p` may come to leave an end of their input where they
succeed. -/
def CustomsLeaveEnds (store : Store) (p : Parser) : Prop :=
  ∀ q f, store.Reaches p q → q.body = .custom f →
    ∀ src v rest, f src = .ok (.success v rest) → rest <:+ src

theorem CustomsLeaveEnds.of_reaches (h : store.CustomsLeaveEnds p) (hq : store.Reaches p q) :
    store.CustomsLeaveEnds q :=
  fun k f hk => h k f (hq.trans hk)

theorem CustomsLeaveEnds.of_calls (h : store.CustomsLeaveEnds p) (hq : store.Calls p q) :
    store.CustomsLeaveEnds q :=
  h.of_reaches (.single hq)

/-- The custom parsers that a run of `p` may come to stay within the input by themselves. -/
def CustomsWithin (store : Store) (p : Parser) : Prop :=
  ∀ q f, store.Reaches p q → q.body = .custom f → ∀ src r, f src = .ok r → r.Within src

theorem CustomsWithin.leaveEnds (h : store.CustomsWithin p) : store.CustomsLeaveEnds p :=
  fun q f hq hf src v rest => h q f hq hf src (.success v rest)

end Store

theorem Parser.leavesEnd_runTo_succ {store : Store} {p : Parser} {s : Settings} {d : Nat}
    (h : (p.body.eval store s.limit (runTo store s d)).LeavesEnd) :
    (runTo store s (d + 1) p).LeavesEnd :=
  fun _ _ _ hr => h (Settings.visit_ending_iff.1 hr).1

theorem Parser.runTo_leavesEnd {store : Store} {p : Parser} (h : store.CustomsLeaveEnds p)
    (s : Settings) (d : Nat) : (runTo store s d p).LeavesEnd := by
  induction d generalizing p with
  | zero => exact fun src v rest hr => by cases hr
  | succ d ih =>
    refine leavesEnd_runTo_succ (Body.eval_leavesEnd (fun q hq => ?_) (fun f q hf hq => ?_)
      fun f hf => h p f .refl hf)
    · exact ih (h.of_calls (.inl hq))
    · exact ih (h.of_calls (.inr ⟨f, hf, hq⟩))

/-! ## Parsers that are built -/

theorem Parser.MadeFrom.within_of_custom {known : Forward → Prop} {p : Parser}
    {f : Text → Except Fault Result} (hp : MadeFrom (fun _ => False) known p)
    (hf : p.body = .custom f) :
    ∀ src r, f src = .ok r → r.Within src := by
  induction hp with
  | base h => exact h.elim
  | named name _ ih => exact ih hf
  | custom name hwithin =>
    cases hf
    exact hwithin
  | _ => cases hf

/-- Where all forwards stand for built parsers, built parsers reach no others. -/
theorem Store.customsWithin_of_built {store : Store} {p : Parser}
    (hp : Parser.Built (fun _ => False) p)
    (hstore : ∀ q f t, store.Reaches p q → q.body = .forward f → store.target? f = some t →
      Parser.Built (fun _ => False) t) : store.CustomsWithin p := by
  intro q f hq hf
  exact (hp.of_reaches (fun _ _ h => h.elim) hstore hq).within_of_custom hf

/-! ## Parsers that stall -/

namespace Parser

/-- The parser may succeed without consuming anything, as far as the bodies tell. A repetition that
must not be empty consumes something, or its first content stalls. -/
inductive MayStall (store : Store) : Parser → Prop
  | pure (name : Text) (v : Value) : MayStall store (mk name (.pure v))
  | eof (name : Text) : MayStall store (mk name .eof)
  | string (name : Text) : MayStall store (mk name (.string []))
  | anycase (name : Text) : MayStall store (mk name (.anycase []))
  | regex (name : Text) {m : Matcher} {src : Text} :
      m.match? src = some ([], src) → MayStall store (mk name (.regex m))
  | map (name : Text) {p : Parser} (f : Value.Function) : MayStall store p →
      MayStall store (mk name (.map p f))
  | flatMap (name : Text) {p q : Parser} {next : Limit → Value → Except Fault Parser}
      {limit : Limit} {v : Value} : MayStall store p → next limit v = .ok q → MayStall store q →
      MayStall store (mk name (.flatMap p next))
  | orElse_left (name : Text) {p : Parser} (q : Parser) : MayStall store p →
      MayStall store (mk name (.orElse p q))
  | orElse_right (name : Text) (p : Parser) {q : Parser} : MayStall store q →
      MayStall store (mk name (.orElse p q))
  | many (name : Text) (p : Parser) : MayStall store (mk name (.many p))
  | nonempty (name : Text) {p : Parser} : (∀ q, p.body ≠ .many q) →
      (∀ content separator, p.body = .sepBy content separator → MayStall store content) →
      MayStall store p → MayStall store (mk name (.nonempty p))
  | optional (name : Text) (p : Parser) : MayStall store (mk name (.optional p))
  | sepBy (name : Text) (content separator : Parser) :
      MayStall store (mk name (.sepBy content separator))
  | seq (name : Text) {ps : List Parser} : (∀ p ∈ ps, MayStall store p) →
      MayStall store (mk name (.seq ps))
  | oneOf (name : Text) {p : Parser} {ps : List Parser} : p ∈ ps → MayStall store p →
      MayStall store (mk name (.oneOf ps))
  | lookahead (name : Text) (p : Parser) : MayStall store (mk name (.lookahead p))
  | inverted (name : Text) (p : Parser) : MayStall store (mk name (.inverted p))
  | forward (name : Text) {f : Forward} {p : Parser} : store.target? f = some p →
      MayStall store p → MayStall store (mk name (.forward f))
  | custom (name : Text) {f : Text → Except Fault Result} {src : Text} {v : Value} :
      f src = .ok (.success v src) → MayStall store (mk name (.custom f))

variable {store : Store} {s : Settings} {d : Nat} {p : Parser}

theorem not_stalls_runTo_zero : ¬ (runTo store s 0 p).Stalls := by
  rintro ⟨src, v, rest, h, -⟩
  cases h

theorem stalls_of_runTo_succ (h : (runTo store s (d + 1) p).Stalls) :
    (p.body.eval store s.limit (runTo store s d)).Stalls := by
  obtain ⟨src, v, rest, h, hle⟩ := h
  exact ⟨src, v, rest, (Settings.visit_ending_iff.1 h).1, hle⟩

/-- What a list is made of that must not be empty is known one call further down. -/
theorem mayStall_nonempty {name : Text} (hp : store.CustomsLeaveEnds p)
    (ih : ∀ k ≤ d, ∀ q, store.CustomsLeaveEnds q → (runTo store s k q).Stalls → MayStall store q)
    (h : (Step.nonempty (runTo store s d p)).Stalls) : MayStall store (mk name (.nonempty p)) := by
  obtain ⟨src, v, rest, hgives, hne, hle⟩ := h.of_nonempty
  have hstalls : (runTo store s d p).Stalls := ⟨src, v, rest, hgives, hle⟩
  cases d with
  | zero => exact absurd hstalls not_stalls_runTo_zero
  | succ d =>
    have hbody : (p.body.eval store s.limit (runTo store s d)).Gives src (.success v rest) :=
      (Settings.visit_ending_iff.1 hgives).1
    have hpart (q : Parser) (hq : p.body.Has q) : store.CustomsLeaveEnds q := hp.of_calls (.inl hq)
    refine .nonempty name (fun q hq => ?_) (fun content separator hq => ?_)
      (ih _ (Nat.le_refl _) p hp hstalls)
    · rw [hq] at hbody hpart
      have hlt := Step.length_lt_of_gives_many (runTo_leavesEnd (hpart q rfl) s d) hbody hne
      omega
    · rw [hq] at hbody hpart
      have hcontent := hpart content (.inl rfl)
      have hseparator := hpart separator (.inr rfl)
      exact ih d (Nat.le_succ d) content hcontent (Step.stalls_of_gives_sepBy
        (runTo_leavesEnd hcontent s d) (runTo_leavesEnd hseparator s d) hbody hne hle)

/-- A parser that succeeds without consuming anything is one that may do so. -/
theorem mayStall_of_stalls (hp : store.CustomsLeaveEnds p) (h : (runTo store s d p).Stalls) :
    MayStall store p := by
  induction d using Nat.strongRecOn generalizing p with
  | ind d ih =>
    cases d with
    | zero => exact absurd h not_stalls_runTo_zero
    | succ d =>
      have hbody := stalls_of_runTo_succ h
      rcases p with ⟨name, b⟩
      have hpart (q : Parser) (hq : b.Has q) : store.CustomsLeaveEnds q := hp.of_calls (.inl hq)
      have hleaves (q : Parser) (hq : b.Has q) : (runTo store s d q).LeavesEnd :=
        runTo_leavesEnd (hpart q hq) s d
      have hstall (q : Parser) (hq : b.Has q) (h : (runTo store s d q).Stalls) :
          MayStall store q := ih d (Nat.lt_succ_self d) (hpart q hq) h
      simp only [body] at hbody
      cases b with
      | pure v => exact .pure name v
      | fail m => exact absurd hbody (Step.not_stalls_fail m)
      | eof => exact .eof name
      | character c => exact absurd hbody (Step.not_stalls_satisfy _ _)
      | satisfy accepts m => exact absurd hbody (Step.not_stalls_satisfy accepts m)
      | string t =>
        cases Step.eq_nil_of_stalls_string hbody
        exact .string name
      | anycase t =>
        cases Step.eq_nil_of_stalls_anycase hbody
        exact .anycase name
      | regex m =>
        obtain ⟨src, hmatch⟩ := Step.matches_nothing_of_stalls_regex hbody
        exact .regex name hmatch
      | map p f => exact .map name f (hstall p rfl hbody.of_map)
      | flatMap p next =>
        have hnext (v : Value) (k : Step)
            (hk : (next s.limit v).map (runTo store s d) = .ok k) : k.LeavesEnd := by
          obtain ⟨q, hq, rfl⟩ := except_map_eq_ok_iff.1 hk
          exact hleaves q (.inr ⟨_, v, hq⟩)
        obtain ⟨hp, v, k, hk, hq⟩ := hbody.of_flatMap (hleaves p (.inl rfl)) hnext
        obtain ⟨q, hnext, rfl⟩ := except_map_eq_ok_iff.1 hk
        exact .flatMap name (hstall p (.inl rfl) hp) hnext (hstall q (.inr ⟨_, v, hnext⟩) hq)
      | orElse p q =>
        rcases hbody.of_orElse with h | h
        · exact .orElse_left name q (hstall p (.inl rfl) h)
        · exact .orElse_right name p (hstall q (.inr rfl) h)
      | many p => exact .many name p
      | nonempty p =>
        exact mayStall_nonempty (hpart p rfl)
          (fun k hk q hq h => ih k (Nat.lt_succ_of_le hk) hq h) hbody
      | optional p => exact .optional name p
      | sepBy content separator => exact .sepBy name content separator
      | seq ps =>
        have hps := hbody.of_seq (leavesEnd_all hleaves)
        exact .seq name fun q hq => hstall q hq (hps _ (List.mem_map_of_mem hq))
      | oneOf ps =>
        obtain ⟨k, hk, h⟩ := hbody.of_oneOf
        obtain ⟨q, hq, rfl⟩ := List.mem_map.1 hk
        exact .oneOf name hq (hstall q hq h)
      | lookahead p => exact .lookahead name p
      | inverted p => exact .inverted name p
      | forward f =>
        simp only [Body.eval] at hbody
        split at hbody
        · next q hq =>
          exact .forward name hq
            (ih d (Nat.lt_succ_self d) (hp.of_calls (.inr ⟨f, rfl, hq⟩)) hbody)
        · exact absurd hbody (Step.not_stalls_raise _)
      | custom f =>
        obtain ⟨src, v, h⟩ := Step.Stalls.of_custom (hp _ f .refl rfl) hbody
        exact .custom name h

end Parser

end Parselet
