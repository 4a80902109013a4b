import Parselet.Proofs.Parser.Gives
import Parselet.Proofs.Step.Alike

/-!
Parsers, run without a bound on the depth of calls, on two inputs at once. Each combinator ends
alike where the parsers it calls do, on what those before left on either side.
-/

namespace Parselet.Parser

variable {store : Store} {limit : Limit} {p q content : Parser} {ps : List Parser}
  {F R R' R'' : Text → Text → Prop} {a b m : Text}

theorem run_alikeOn :
    (run store limit p).AlikeOn F R a b ↔
      (p.body.eval store limit (run store limit)).AlikeOn F R a b := by
  simp only [Step.AlikeOn, Run.Alike, run_ending]

theorem alikeOn_named {name : Text} :
    (run store limit (p.named name)).AlikeOn F R a b ↔ (run store limit p).AlikeOn F R a b := by
  rw [run_alikeOn, run_alikeOn]
  rfl

theorem alikeOn_of_pure {k : Parser} {v : Value} (hk : Parser.pure limit v = .ok k) (h : R a b) :
    (run store limit k).AlikeOn F R a b := by
  obtain ⟨name, rfl⟩ := exists_eq_of_pure hk
  exact run_alikeOn.2 (Step.alikeOn_pure h)

theorem alikeOn_fail (h : F a b) : (run store limit (fail m)).AlikeOn F R a b :=
  run_alikeOn.2 (Step.alikeOn_fail h)

theorem alikeOn_map {f : Value.Function} (hp : (run store limit p).AlikeOn F R a b) :
    (run store limit (p.map f)).AlikeOn F R a b :=
  run_alikeOn.2 hp.map

theorem alikeOn_flatMap {next : Limit → Value → Except Fault Parser}
    (hp : (run store limit p).AlikeOn F R a b)
    (hnext : ∀ v rest rest' k, (run store limit p).Gives a (.success v rest) →
      (run store limit p).Gives b (.success v rest') → R rest rest' → next limit v = .ok k →
      (run store limit k).AlikeOn F R' rest rest') :
    (run store limit (p.flatMap next)).AlikeOn F R' a b := by
  refine run_alikeOn.2 (hp.flatMap fun v rest rest' k hgives hgives' hrest hk => ?_)
  obtain ⟨q, hq, rfl⟩ := except_map_eq_ok_iff.1 hk
  exact hnext v rest rest' q hgives hgives' hrest hq

theorem alikeOn_andThen (hp : (run store limit p).AlikeOn F R a b)
    (hq : ∀ v rest rest', (run store limit p).Gives a (.success v rest) →
      (run store limit p).Gives b (.success v rest') → R rest rest' →
      (run store limit q).AlikeOn F R' rest rest') :
    (run store limit (p.andThen q)).AlikeOn F R' a b := by
  refine alikeOn_named.2 (alikeOn_flatMap hp fun v rest rest' k hgives hgives' hrest hk => ?_)
  cases hk
  exact hq v rest rest' hgives hgives' hrest

theorem alikeOn_followedBy (hp : (run store limit p).AlikeOn F R a b)
    (hq : ∀ v rest rest', (run store limit p).Gives a (.success v rest) →
      (run store limit p).Gives b (.success v rest') → R rest rest' →
      (run store limit q).AlikeOn F R' rest rest') :
    (run store limit (p.followedBy q)).AlikeOn F R' a b := by
  refine alikeOn_named.2 (alikeOn_flatMap hp fun v rest rest' k hgives hgives' hrest hk => ?_)
  cases hk
  exact alikeOn_map (hq v rest rest' hgives hgives' hrest)

theorem alikeOn_between (hp : (run store limit p).AlikeOn F R a b)
    (hcontent : ∀ v rest rest', (run store limit p).Gives a (.success v rest) →
      (run store limit p).Gives b (.success v rest') → R rest rest' →
      (run store limit content).AlikeOn F R' rest rest')
    (hq : ∀ rest rest', R' rest rest' → (run store limit q).AlikeOn F R'' rest rest') :
    (run store limit (between p content q)).AlikeOn F R'' a b :=
  alikeOn_named.2 (alikeOn_followedBy (alikeOn_andThen hp hcontent)
    fun _ rest rest' _ _ hrest => hq rest rest' hrest)

theorem alikeOn_orElse (hp : (run store limit p).AlikeOn F R a b)
    (hq : (run store limit q).AlikeOn F R a b) :
    (run store limit (p.orElse q)).AlikeOn F R a b :=
  run_alikeOn.2 (hp.orElse hq)

theorem alikeOn_many {I : Text → Text → Prop}
    (hp : ∀ a b, I a b → (run store limit p).AlikeOn F R a b)
    (hconsumes : ∀ a v rest, (run store limit p).Gives a (.success v rest) →
      rest.length < a.length)
    (hnext : ∀ a b v rest rest', I a b → (run store limit p).Gives a (.success v rest) →
      R rest rest' → I rest rest') (h : I a b) :
    (run store limit p.many).AlikeOn F I a b :=
  run_alikeOn.2 (Step.alikeOn_many (Step.alike_iterate hp hconsumes hnext h))

theorem alikeOn_pair (hp : (run store limit p).AlikeOn F R a b)
    (hq : ∀ v rest rest', (run store limit p).Gives a (.success v rest) →
      (run store limit p).Gives b (.success v rest') → R rest rest' →
      (run store limit q).AlikeOn F R' rest rest') :
    (run store limit (seq [p, q])).AlikeOn F R' a b := by
  refine run_alikeOn.2 (Step.alikeOn_seq ?_)
  refine Step.alike_collect_cons hp fun v rest rest' hgives hgives' hrest => ?_
  exact Step.alike_collect_cons (hq v rest rest' hgives hgives' hrest)
    fun _ _ _ _ _ => Step.alike_collect_nil

theorem alikeOn_oneOf (hps : ∀ p ∈ ps, (run store limit p).AlikeOn F R a b) (h : F a b) :
    (run store limit (oneOf ps)).AlikeOn F R a b := by
  refine run_alikeOn.2 (Step.alikeOn_oneOf (fun k hk => ?_) h)
  obtain ⟨p, hp, rfl⟩ := List.mem_map.1 hk
  exact hps p hp

theorem alikeOn_forward {f : Forward} (hf : store.target? f = some p) :
    (run store limit (forward f)).AlikeOn F R a b ↔ (run store limit p).AlikeOn F R a b := by
  rw [run_alikeOn]
  simp only [forward, body, Body.eval, hf]

end Parselet.Parser
