import Parselet.Proofs.Parser.Gives
import Parselet.Proofs.Step.Ends

/-!
Where runs of parsers without a bound on the depth of calls come to an end, and for which faults
they are given up. Each combinator ends where the parsers it calls do, on what those before left.
-/

namespace Parselet.Parser

variable {store : Store} {limit : Limit} {p q content : Parser} {ps : List Parser}
  {E : Fault → Prop} {src m : Text}

theorem run_endsOn :
    (run store limit p).EndsOn E src ↔
      (p.body.eval store limit (run store limit)).EndsOn E src :=
  Run.ends_congr (run_ending store limit p src)

theorem endsOn_named {name : Text} :
    (run store limit (p.named name)).EndsOn E src ↔ (run store limit p).EndsOn E src := by
  rw [run_endsOn, run_endsOn]
  rfl

theorem endsOn_of_pure {k : Parser} {v : Value} (hk : Parser.pure limit v = .ok k) :
    (run store limit k).EndsOn E src := by
  obtain ⟨name, rfl⟩ := exists_eq_of_pure hk
  exact run_endsOn.2 (Step.endsOn_pure v src)

theorem endsOn_fail : (run store limit (fail m)).EndsOn E src :=
  run_endsOn.2 (Step.endsOn_fail m src)

theorem endsOn_satisfy {accepts : CodePoint → Bool} :
    (run store limit (satisfy accepts m)).EndsOn E src :=
  run_endsOn.2 (Step.endsOn_satisfy accepts m src)

theorem endsOn_string {t : Text} : (run store limit (string t)).EndsOn E src :=
  run_endsOn.2 (Step.endsOn_string t src)

theorem endsOn_map {f : Value.Function} (hp : (run store limit p).EndsOn E src)
    (hf : ∀ v fault, f limit v = .error fault → E fault) :
    (run store limit (p.map f)).EndsOn E src :=
  run_endsOn.2 (hp.map fun v _ fault _ => hf v fault)

theorem endsOn_flatMap {next : Limit → Value → Except Fault Parser}
    (hp : (run store limit p).EndsOn E src)
    (hraise : ∀ v rest fault, (run store limit p).Gives src (.success v rest) →
      next limit v = .error fault → E fault)
    (hnext : ∀ v rest k, (run store limit p).Gives src (.success v rest) →
      next limit v = .ok k → (run store limit k).EndsOn E rest) :
    (run store limit (p.flatMap next)).EndsOn E src := by
  refine run_endsOn.2 (hp.flatMap (fun v rest fault hgives hfault => ?_) ?_)
  · refine hraise v rest fault hgives ?_
    cases hv : next limit v with
    | ok k =>
      rw [hv] at hfault
      cases hfault
    | error fault' =>
      rw [hv] at hfault
      cases hfault
      rfl
  · intro v rest k hgives hk
    obtain ⟨q, hq, rfl⟩ := except_map_eq_ok_iff.1 hk
    exact hnext v rest q hgives hq

theorem endsOn_andThen (hp : (run store limit p).EndsOn E src)
    (hq : ∀ v rest, (run store limit p).Gives src (.success v rest) →
      (run store limit q).EndsOn E rest) :
    (run store limit (p.andThen q)).EndsOn E src := by
  refine endsOn_named.2 (endsOn_flatMap hp nofun fun v rest k hgives hk => ?_)
  cases hk
  exact hq v rest hgives

theorem endsOn_followedBy (hp : (run store limit p).EndsOn E src)
    (hq : ∀ v rest, (run store limit p).Gives src (.success v rest) →
      (run store limit q).EndsOn E rest) :
    (run store limit (p.followedBy q)).EndsOn E src := by
  refine endsOn_named.2 (endsOn_flatMap hp nofun fun v rest k hgives hk => ?_)
  cases hk
  exact endsOn_map (hq v rest hgives) nofun

theorem endsOn_between (hp : (run store limit p).EndsOn E src)
    (hcontent : ∀ v rest, (run store limit p).Gives src (.success v rest) →
      (run store limit content).EndsOn E rest)
    (hq : ∀ v mid w rest, (run store limit p).Gives src (.success v mid) →
      (run store limit content).Gives mid (.success w rest) →
      (run store limit q).EndsOn E rest) :
    (run store limit (between p content q)).EndsOn E src := by
  refine endsOn_named.2 (endsOn_followedBy (endsOn_andThen hp hcontent) fun w rest h => ?_)
  obtain ⟨v, mid, hv, hw⟩ := gives_andThen.1 h
  exact hq v mid w rest hv hw

theorem endsOn_orElse (hp : (run store limit p).EndsOn E src)
    (hq : (run store limit q).EndsOn E src) : (run store limit (p.orElse q)).EndsOn E src :=
  run_endsOn.2 (hp.orElse hq)

theorem endsOn_many (h : (Step.iterate (run store limit p) src).Ends E) :
    (run store limit p.many).EndsOn E src :=
  run_endsOn.2 (Step.endsOn_many h)

theorem endsOn_many1 (h : (Step.iterate (run store limit p) src).Ends E) :
    (run store limit (many1 p)).EndsOn E src := by
  have hmany : (run store limit p.many).EndsOn E src := endsOn_many h
  exact run_endsOn.2 hmany.nonempty

theorem endsOn_pair (hp : (run store limit p).EndsOn E src)
    (hq : ∀ v rest, (run store limit p).Gives src (.success v rest) →
      (run store limit q).EndsOn E rest) :
    (run store limit (seq [p, q])).EndsOn E src := by
  refine run_endsOn.2 (Step.endsOn_seq (Step.ends_collect_cons hp fun v rest hgives => ?_))
  exact Step.ends_collect_cons (hq v rest hgives) fun _ _ _ => Run.ends_pure _

theorem endsOn_oneOf (hps : ∀ p ∈ ps, (run store limit p).EndsOn E src) :
    (run store limit (oneOf ps)).EndsOn E src := by
  refine run_endsOn.2 (Step.endsOn_oneOf fun k hk => ?_)
  obtain ⟨p, hp, rfl⟩ := List.mem_map.1 hk
  exact hps p hp

theorem endsOn_forward {f : Forward} (hf : store.target? f = some p) :
    (run store limit (forward f)).EndsOn E src ↔ (run store limit p).EndsOn E src := by
  rw [run_endsOn]
  simp only [forward, body, Body.eval, hf]

end Parselet.Parser
