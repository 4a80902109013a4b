import Mathlib.Data.List.Forall2
import Parselet.Parser.Combinator
import Parselet.Proofs.Parser.Built
import Parselet.Proofs.Step.Safe
import Parselet.Proofs.Value.Fits

/-!
The values of parsers that are never given up, with debugging on or off. All values can be written
under the limit of the run, so that no message and no log line is too long; what else is known of
them goes from the parts of a parser to the parser. A bound on the depth of calls lets recursion
through forwards be argued about one level after the other.
-/

namespace Parselet

open Step

/-- A call is never given up if its body is not and all values can be written. -/
theorem Settings.safe_visit {s : Settings} {run : Run Result} {Q : Value → Prop}
    (h : run.Safe (Result.Holds fun v => Q v ∧ v.fits s.limit = true)) (name src : Text) :
    (s.visit name src run).Safe (Result.Holds fun v => Q v ∧ v.fits s.limit = true) := by
  unfold visit
  split
  · refine Run.Safe.bind (P := fun _ => True) trivial fun _ _ => h.bind fun r hr => ?_
    have hfits : r.Fits s.limit := by
      cases r with
      | success v rest => exact hr.2
      | failure m s => trivial
    obtain ⟨t, ht⟩ := Result.written?_of_fits hfits
    rw [ht]
    exact hr
  · exact h

namespace Parser

/-- With calls fewer than `n` deep, the body of the parser is never given up, and its values satisfy
`Q` and can be written. -/
def Yields (store : Store) (s : Settings) (n : Nat) (Q : Value → Prop) (p : Parser) : Prop :=
  ∀ d < n, (p.body.eval store s.limit (runTo store s d)).Yields
    fun v => Q v ∧ v.fits s.limit = true

variable {store : Store} {s : Settings} {n d : Nat} {p q content separator : Parser}
  {ps : List Parser} {Q R : Value → Prop} {name : Text}

theorem Yields.call (hp : Yields store s n Q p) (hd : d ≤ n) :
    (runTo store s d p).Yields fun v => Q v ∧ v.fits s.limit = true := by
  cases d with
  | zero => exact fun src => trivial
  | succ d => exact fun src => Settings.safe_visit (hp d hd src) p.name src

theorem Yields.call_of_lt (hp : Yields store s n Q p) (hd : d < n) :
    (runTo store s d p).Yields fun v => Q v ∧ v.fits s.limit = true :=
  hp.call (Nat.le_of_lt hd)

/-- A name is nothing to a body. -/
theorem Yields.named (hp : Yields store s n Q p) (name : Text) :
    Yields store s n Q (p.named name) := hp

theorem Yields.mono (hp : Yields store s n Q p)
    (h : ∀ v, Q v → v.fits s.limit = true → R v) : Yields store s n R p :=
  fun d hd => (hp d hd).mono fun v hv => ⟨h v hv.1 hv.2, hv.2⟩

theorem yields_pure {v : Value} (h : Q v) (hfits : v.fits s.limit = true) :
    Yields store s n Q (mk name (.pure v)) :=
  fun _ _ => Step.yields_pure ⟨h, hfits⟩

theorem yields_fail (m : Text) : Yields store s n Q (mk name (.fail m)) :=
  fun _ _ => Step.yields_fail m

theorem yields_eof (h : Q .nothing) : Yields store s n Q (mk name .eof) :=
  fun _ _ => Step.yields_eof ⟨h, rfl⟩

theorem yields_satisfy {accepts : CodePoint → Bool} {m : Text}
    (h : ∀ c, accepts c = true → Q (.text [c])) :
    Yields store s n Q (mk name (.satisfy accepts m)) :=
  fun _ _ => Step.yields_satisfy fun c hc => ⟨h c hc, rfl⟩

theorem yields_character {c : CodePoint} (h : Q (.text [c])) :
    Yields store s n Q (mk name (.character c)) := by
  refine fun _ _ => Step.yields_satisfy fun c' hc => ?_
  rw [of_decide_eq_true hc]
  exact ⟨h, rfl⟩

theorem yields_string {t : Text} (h : Q (.text t)) : Yields store s n Q (mk name (.string t)) :=
  fun _ _ => Step.yields_string ⟨h, rfl⟩

theorem yields_anycase {t : Text}
    (h : ∀ found : Text, found.length = t.length → found.lower = t.lower → Q (.text found)) :
    Yields store s n Q (mk name (.anycase t)) :=
  fun _ _ => Step.yields_anycase fun found hlength hlower => ⟨h found hlength hlower, rfl⟩

theorem yields_regex {m : Matcher} (h : ∀ t, Q (.text t)) :
    Yields store s n Q (mk name (.regex m)) :=
  fun _ _ => Step.yields_regex fun t => ⟨h t, rfl⟩

theorem Yields.map {f : Value.Function} (hp : Yields store s n Q p)
    (hf : ∀ v, Q v → v.fits s.limit = true →
      ∃ w, f s.limit v = .ok w ∧ R w ∧ w.fits s.limit = true) :
    Yields store s n R (mk name (.map p f)) :=
  fun _ hd => (hp.call_of_lt hd).map fun v hv => hf v hv.1 hv.2

theorem Yields.flatMap {next : Limit → Value → Except Fault Parser} (hp : Yields store s n Q p)
    (hnext : ∀ v, Q v → v.fits s.limit = true →
      ∃ q, next s.limit v = .ok q ∧ Yields store s n R q) :
    Yields store s n R (mk name (.flatMap p next)) := by
  refine fun d hd => (hp.call_of_lt hd).flatMap fun v hv => ?_
  obtain ⟨q, hq, hyields⟩ := hnext v hv.1 hv.2
  exact ⟨runTo store s d q, by rw [hq]; rfl, hyields.call_of_lt hd⟩

theorem Yields.orElse (hp : Yields store s n Q p) (hq : Yields store s n Q q) :
    Yields store s n Q (mk name (.orElse p q)) :=
  fun _ hd => (hp.call_of_lt hd).orElse (hq.call_of_lt hd)

theorem Yields.many (hp : Yields store s n Q p) (h : ∀ vs, (∀ v ∈ vs, Q v) → R (.list vs)) :
    Yields store s n R (mk name (.many p)) := by
  refine fun d hd => (hp.call_of_lt hd).many fun vs hvs => ?_
  exact ⟨h vs fun v hv => (hvs v hv).1, Value.fits_list_iff.2 fun v hv => (hvs v hv).2⟩

theorem Yields.nonempty (hp : Yields store s n Q p) :
    Yields store s n (fun v => Q v ∧ v ≠ .list []) (mk name (.nonempty p)) :=
  fun _ hd => (hp.call_of_lt hd).nonempty.mono fun _ ⟨⟨hv, hfits⟩, hne⟩ => ⟨⟨hv, hne⟩, hfits⟩

theorem Yields.optional (hp : Yields store s n Q p) (habsent : Q .absent) :
    Yields store s n Q (mk name (.optional p)) :=
  fun _ hd => (hp.call_of_lt hd).optional ⟨habsent, rfl⟩

theorem Yields.sepBy (hcontent : Yields store s n Q content)
    (hseparator : Yields store s n R separator) {S : Value → Prop}
    (h : ∀ vs, (∀ v ∈ vs, Q v) → S (.list vs)) :
    Yields store s n S (mk name (.sepBy content separator)) := by
  refine fun d hd => (hcontent.call_of_lt hd).sepBy (hseparator.call_of_lt hd) fun vs hvs => ?_
  exact ⟨h vs fun v hv => (hvs v hv).1, Value.fits_list_iff.2 fun v hv => (hvs v hv).2⟩

/-- The values of a sequence, each with the property of its parser. -/
theorem Yields.seq {Qs : List (Value → Prop)}
    (hps : List.Forall₂ (fun p Q => Yields store s n Q p) ps Qs)
    (h : ∀ vs, List.Forall₂ (fun v Q => Q v) vs Qs → R (.tuple vs)) :
    Yields store s n R (mk name (.seq ps)) := by
  intro d hd
  have hsteps : List.Forall₂ (fun p Q => Step.Yields Q p) (ps.map (runTo store s d))
      (Qs.map fun Q v => Q v ∧ v.fits s.limit = true) := by
    rw [List.forall₂_map_left_iff, List.forall₂_map_right_iff]
    exact hps.imp fun p Q hp => hp.call_of_lt hd
  refine Step.Yields.seq hsteps fun vs hvs => ?_
  rw [List.forall₂_map_right_iff] at hvs
  obtain ⟨hfits, hvs⟩ := (List.forall₂_and_left _ _).1 (hvs.imp fun v Q hv => hv.symm)
  exact ⟨h vs hvs, Value.fits_tuple_iff.2 hfits⟩

theorem Yields.oneOf (hps : ∀ p ∈ ps, Yields store s n Q p) :
    Yields store s n Q (mk name (.oneOf ps)) := by
  refine fun d hd => Step.Yields.oneOf fun k hk => ?_
  obtain ⟨p, hp, rfl⟩ := List.mem_map.1 hk
  exact (hps p hp).call_of_lt hd

theorem Yields.lookahead (hp : Yields store s n Q p) :
    Yields store s n Q (mk name (.lookahead p)) :=
  fun _ hd => (hp.call_of_lt hd).lookahead

theorem Yields.inverted (hp : Yields store s n Q p) (h : R .nothing) :
    Yields store s n R (mk name (.inverted p)) := by
  refine fun d hd => (hp.call_of_lt hd).inverted (fun v hv => ?_) ⟨h, rfl⟩
  exact Value.exists_written?_iff.2 hv.2

/-- What a forward stands for is run one call deeper. -/
theorem Yields.forward {f : Forward} (hf : store.target? f = some p) (hp : Yields store s n Q p) :
    Yields store s (n + 1) Q (mk name (.forward f)) := by
  intro d hd
  simp only [body, Body.eval, hf]
  exact hp.call (Nat.le_of_lt_succ hd)

/-! Derived combinators. -/

theorem Yields.andThen (hp : Yields store s n Q p) (hq : Yields store s n R q) :
    Yields store s n R (p.andThen q) := by
  have hflatMap : Yields store s n R (p.flatMap fun _ _ => .ok q) :=
    Yields.flatMap hp fun _ _ _ => ⟨q, rfl, hq⟩
  exact hflatMap.named _

theorem Yields.followedBy (hp : Yields store s n Q p) (hq : Yields store s n R q) :
    Yields store s n Q (p.followedBy q) :=
  Yields.flatMap hp fun v hv hfits =>
    ⟨_, rfl, Yields.map hq fun _ _ _ => ⟨v, rfl, hv, hfits⟩⟩

theorem Yields.between {p q k : Parser} {S : Value → Prop} (hp : Yields store s n R p)
    (hq : Yields store s n Q q) (hk : Yields store s n S k) :
    Yields store s n Q (between p q k) :=
  (hp.andThen hq).followedBy hk

end Parser

end Parselet
