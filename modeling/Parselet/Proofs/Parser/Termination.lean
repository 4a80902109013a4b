import Mathlib.Data.Fintype.EquivFin
import Parselet.Proofs.Parser.Debug
import Parselet.Proofs.Parser.Stall
import Parselet.Proofs.Parser.Store
import Parselet.Proofs.Step.Ends

/-!
Runs come to an end unless a forward can get back to itself before anything is consumed. A run goes
down either to a shorter input or to a parser that is called first, and there are only finitely many
forwards.
-/

namespace Parselet

open Relation

/-! ## Calls before anything is consumed -/

/-- The body may run its part `q` before anything is consumed, if `stalls` holds of the parsers that
may succeed without consuming. -/
def Body.HasFirst (stalls : Parser → Prop) (q : Parser) : Body → Prop
  | .map p _ => q = p
  | .flatMap p next => q = p ∨ stalls p ∧ ∃ limit v, next limit v = .ok q
  | .orElse p p' => q = p ∨ q = p'
  | .many p => q = p
  | .nonempty p => q = p
  | .optional p => q = p
  | .sepBy content separator => q = content ∨ stalls content ∧ q = separator
  | .seq ps => ∃ before after, ps = before ++ q :: after ∧ ∀ p ∈ before, stalls p
  | .oneOf ps => q ∈ ps
  | .lookahead p => q = p
  | .inverted p => q = p
  | _ => False

theorem Body.HasFirst.has {stalls : Parser → Prop} {q : Parser} {b : Body}
    (h : b.HasFirst stalls q) : b.Has q := by
  cases b with
  | flatMap p next => exact h.imp_right And.right
  | sepBy content separator => exact h.imp_right And.right
  | seq ps =>
    obtain ⟨before, after, rfl, -⟩ := h
    simp [Has]
  | _ => exact h

section Ends

open Run

variable {store : Store} {limit : Limit} {call : Parser → Step} {src : Text}

/-- A body ends if all parts end on shorter inputs, and those it runs first on the input itself. -/
theorem Body.eval_halts {b : Body} {stalls : Parser → Prop}
    (hleaves : ∀ q, b.Has q → (call q).LeavesEnd)
    (hstalls : ∀ q, b.Has q → (call q).Stalls → stalls q)
    (hshorter : ∀ q, b.Has q → ∀ mid : Text, mid.length < src.length → (call q).Halts mid)
    (hfirst : ∀ q, b.HasFirst stalls q → (call q).Halts src)
    (hforward : ∀ f, b = .forward f → (b.eval store limit call).Halts src) :
    (b.eval store limit call).Halts src := by
  cases b with
  | pure v => exact Step.endsOn_pure v src
  | fail m => exact Step.endsOn_fail m src
  | eof => exact Step.endsOn_eof src
  | character c => exact Step.endsOn_satisfy _ _ src
  | satisfy accepts m => exact Step.endsOn_satisfy accepts m src
  | string t => exact Step.endsOn_string t src
  | anycase t => exact Step.endsOn_anycase t src
  | regex m => exact Step.endsOn_regex m src
  | custom f => exact ends_ofExcept fun _ _ => trivial
  | map p f => exact (hfirst p rfl).map fun _ _ _ _ _ => trivial
  | flatMap p next =>
    refine (hfirst p (.inl rfl)).flatMap (fun _ _ _ _ _ => trivial) fun v rest k hgives hk => ?_
    obtain ⟨q, hq, rfl⟩ := except_map_eq_ok_iff.1 hk
    have hpart : (Body.flatMap p next).Has q := .inr ⟨limit, v, hq⟩
    refine Step.endsOn_after (hleaves p (.inl rfl)) hgives (hshorter q hpart) fun hstall => ?_
    exact hfirst q (.inr ⟨hstalls p (.inl rfl) hstall, limit, v, hq⟩)
  | orElse p q => exact (hfirst p (.inl rfl)).orElse (hfirst q (.inr rfl))
  | many p =>
    exact Step.endsOn_many (Step.ends_iterate_of_length_lt (hfirst p rfl) (hshorter p rfl))
  | nonempty p => exact (hfirst p rfl).nonempty
  | optional p => exact (hfirst p rfl).optional
  | sepBy content separator =>
    refine Step.endsOn_sepBy (hleaves content (.inl rfl)) (hleaves separator (.inr rfl))
      (hfirst content (.inl rfl)) (hshorter content (.inl rfl)) (hshorter separator (.inr rfl))
      fun hstall => ?_
    exact hfirst separator (.inr ⟨hstalls content (.inl rfl) hstall, rfl⟩)
  | seq ps =>
    refine Step.endsOn_seq (Step.ends_collect (Parser.leavesEnd_all hleaves) ?_ ?_)
    · rintro k hk mid hmid
      obtain ⟨q, hq, rfl⟩ := List.mem_map.1 hk
      exact hshorter q hq mid hmid
    · rintro before k after hps hbefore
      obtain ⟨ps₁, ps₂, rfl, rfl, hps₂⟩ := List.map_eq_append_iff.1 hps
      obtain ⟨q, ps₃, rfl, rfl, -⟩ := List.map_eq_cons_iff.1 hps₂
      refine hfirst q ⟨ps₁, ps₃, rfl, fun p hp => ?_⟩
      exact hstalls p (by simp [Has, hp]) (hbefore _ (List.mem_map_of_mem hp))
  | oneOf ps =>
    refine Step.endsOn_oneOf fun k hk => ?_
    obtain ⟨q, hq, rfl⟩ := List.mem_map.1 hk
    exact hfirst q hq
  | lookahead p => exact (hfirst p rfl).lookahead
  | inverted p =>
    refine Run.Ends.bind (hfirst p rfl) fun r _ => ?_
    cases r with
    | failure m s => exact ends_pure _
    | success v rest => exact (ends_ofExcept fun _ _ => trivial).bind fun t _ => ends_pure _
  | forward f => exact hforward f rfl

end Ends

/-! ## Left recursion -/

namespace Store

variable {store : Store} {p q k : Parser}

/-- A run of `p` may call `q` before anything is consumed. -/
def CallsFirst (store : Store) (p q : Parser) : Prop :=
  p.body.HasFirst (Parser.MayStall store) q ∨ ∃ f, p.body = .forward f ∧ store.target? f = some q

theorem CallsFirst.calls (h : store.CallsFirst p q) : store.Calls p q :=
  h.imp_left Body.HasFirst.has

theorem callsFirst_forward_iff {f : Forward} (hp : p.body = .forward f) :
    store.CallsFirst p q ↔ store.target? f = some q := by
  simp [CallsFirst, hp, Body.HasFirst]

/-- From the forward with number `i`, which `p` reaches, a run may come to the forward with number
`j` before anything is consumed. -/
def LeadsFirst (store : Store) (p : Parser) (i j : Nat) : Prop :=
  ∃ q k f g, store.Reaches p q ∧ q.body = .forward f ∧ f.id = i ∧
    TransGen store.CallsFirst q k ∧ k.body = .forward g ∧ g.id = j

/-- Some forward that `p` reaches may come to itself again before anything is consumed. -/
def LeftRecursive (store : Store) (p : Parser) : Prop := ∃ i, store.LeadsFirst p i i

/-- All names of a forward stand for the same parser. -/
theorem LeadsFirst.trans {i j n : Nat} (h : store.LeadsFirst p i j) (h' : store.LeadsFirst p j n) :
    store.LeadsFirst p i n := by
  obtain ⟨q, k, f, g, hq, hf, hi, hqk, hg, hj⟩ := h
  obtain ⟨q', k', f', g', -, hf', hj', hqk', hg', hn⟩ := h'
  refine ⟨q, k', f, g', hq, hf, hi, hqk.trans ?_, hg', hn⟩
  obtain ⟨t, ht, htk⟩ := TransGen.head'_iff.1 hqk'
  refine TransGen.head'_iff.2 ⟨t, ?_, htk⟩
  rw [callsFirst_forward_iff hf'] at ht
  rw [callsFirst_forward_iff hg, ← ht, target?, target?, hj, hj']

/-- There is no left recursion if the parsers that forwards call first, and those that these call
first in turn, are no forwards. -/
theorem not_leftRecursive_of_closed {T : Parser → Prop}
    (hfirst : ∀ q f, store.Reaches p q → q.body = .forward f → ∀ k, store.CallsFirst q k → T k)
    (hclosed : ∀ q k, T q → store.CallsFirst q k → T k)
    (hforward : ∀ q f, T q → q.body ≠ .forward f) : ¬ store.LeftRecursive p := by
  rintro ⟨i, q, k, f, g, hq, hf, -, hlead, hg, -⟩
  have hk : T k := by
    clear hg
    induction hlead with
    | single h => exact hfirst q f hq hf _ h
    | tail _ h ih => exact hclosed _ _ ih h
  exact hforward k g hk hg

/-- Parsers get their turn before those that call them first. -/
theorem acc_of_forwards
    (h : ∀ q f, ReflTransGen store.CallsFirst p q → q.body = .forward f →
      Acc (fun k q => store.CallsFirst q k) q) : Acc (fun k q => store.CallsFirst q k) p := by
  induction p using Parser.induction_on_parts with
  | h name b ih =>
    by_cases hb : ∃ f, b = .forward f
    · obtain ⟨f, rfl⟩ := hb
      exact h _ f .refl rfl
    · refine Acc.intro _ fun k hk => ?_
      rcases hk with hpart | ⟨f, hf, -⟩
      · exact ih k hpart.has fun q f hq => h q f (.head (.inl hpart) hq)
      · exact absurd ⟨f, hf⟩ hb

/-- A forward that stands for nothing calls nothing. -/
theorem acc_of_target_none {f : Forward} (hq : q.body = .forward f)
    (hf : store.target? f = none) : Acc (fun k q => store.CallsFirst q k) q := by
  refine Acc.intro _ fun k hk => ?_
  rw [callsFirst_forward_iff hq, hf] at hk
  cases hk

theorem reaches_of_callsFirst (h : ReflTransGen store.CallsFirst p q) : store.Reaches p q :=
  ReflTransGen.mono (fun _ _ => CallsFirst.calls) p q h

theorem acc_callsFirst (hp : ¬ store.LeftRecursive p) (hq : store.Reaches p q) :
    Acc (fun k q => store.CallsFirst q k) q := by
  -- there are finitely many forwards that stand for a parser, and none comes back to itself
  let leads (j i : Fin store.targets.length) : Prop := store.LeadsFirst p i j
  have htrans : IsTrans _ leads := ⟨fun _ _ _ h h' => h'.trans h⟩
  have hirrefl : Std.Irrefl leads := ⟨fun i h => hp ⟨i, h⟩⟩
  have hwf : WellFounded leads := Finite.wellFounded_of_trans_of_irrefl leads
  have hforward (i : Fin store.targets.length) (k : Parser) (g : Forward)
      (hk : store.Reaches p k) (hg : k.body = .forward g) (hi : g.id = i) :
      Acc (fun k q => store.CallsFirst q k) k := by
    induction i using hwf.induction generalizing k g with
    | _ i ih =>
      refine Acc.intro _ fun t ht => acc_of_forwards fun k' g' hk' hg' => ?_
      cases htarget : store.target? g' with
      | none => exact acc_of_target_none hg' htarget
      | some t' =>
        have hlead : TransGen store.CallsFirst k k' := TransGen.head' ht hk'
        exact ih ⟨g'.id, lt_length_of_target? htarget⟩
          ⟨k, k', g, g', hk, hg, hi, hlead, hg', rfl⟩ k' g'
          (hk.trans (reaches_of_callsFirst hlead.to_reflTransGen)) hg' rfl
  refine acc_of_forwards fun k g hk hg => ?_
  cases htarget : store.target? g with
  | none => exact acc_of_target_none hg htarget
  | some t =>
    exact hforward ⟨g.id, lt_length_of_target? htarget⟩ k g
      (hq.trans (reaches_of_callsFirst hk)) hg rfl

end Store

/-! ## Termination -/

namespace Parser

variable {store : Store} {limit : Limit} {p q : Parser} {src : Text}

theorem run_leavesEnd (h : store.CustomsLeaveEnds p) (limit : Limit) :
    (run store limit p).LeavesEnd := by
  intro src v rest hr
  obtain ⟨d, hd⟩ := run_eventually store limit p src
  exact runTo_leavesEnd h { limit } d ((hd d (Nat.le_refl d)).trans hr)

theorem mayStall_of_stalls_run (h : store.CustomsLeaveEnds p)
    (hstall : (run store limit p).Stalls) : MayStall store p := by
  obtain ⟨src, v, rest, hgives, hle⟩ := hstall
  obtain ⟨d, hd⟩ := run_eventually store limit p src
  exact mayStall_of_stalls h ⟨src, v, rest, (hd d (Nat.le_refl d)).trans hgives, hle⟩

/-- One call, if all calls end on shorter inputs and those made first on the input itself. -/
theorem run_halts (hcustom : store.CustomsLeaveEnds p)
    (hshorter : ∀ q, store.Calls p q → ∀ mid : Text, mid.length < src.length →
      (run store limit q).Halts mid)
    (hfirst : ∀ q, store.CallsFirst p q → (run store limit q).Halts src) :
    (run store limit p).Halts src := by
  have hpart (q : Parser) (hq : p.body.Has q) : store.CustomsLeaveEnds q :=
    hcustom.of_calls (.inl hq)
  refine (Run.ends_congr (run_ending store limit p src)).2 ?_
  refine Body.eval_halts (fun q hq => run_leavesEnd (hpart q hq) limit)
    (fun q hq => mayStall_of_stalls_run (hpart q hq)) (fun q hq => hshorter q (.inl hq))
    (fun q hq => hfirst q (.inl hq)) fun f hf => ?_
  rw [hf]
  simp only [Body.eval]
  split
  · next q hq => exact hfirst q (.inr ⟨f, hf, hq⟩)
  · exact Run.ends_raise trivial

/-- Every run comes to an end if custom parsers leave an end of their input and no forward comes to
itself again before anything is consumed. -/
theorem run_halts_of_not_leftRecursive (hcustom : store.CustomsLeaveEnds p)
    (hleft : ¬ store.LeftRecursive p) (limit : Limit) (src : Text) :
    (run store limit p).Halts src := by
  have hall (n : Nat) : ∀ q, store.Reaches p q → ∀ src : Text, src.length = n →
      (run store limit q).Halts src := by
    induction n using Nat.strongRecOn with
    | ind n ihn =>
      intro q hq
      -- at one length, the parsers that are called first come first
      induction Store.acc_callsFirst hleft hq with
      | intro q _ ihq =>
        rintro src rfl
        refine run_halts (hcustom.of_reaches hq) (fun k hk mid hmid => ?_) fun k hk => ?_
        · exact ihn _ hmid k (hq.tail hk) mid rfl
        · exact ihq k hk (hq.tail hk.calls) src rfl
  exact hall _ p .refl src rfl

theorem run_ends (hcustom : store.CustomsWithin p) (hleft : ¬ store.LeftRecursive p)
    (limit : Limit) (src : Text) : (run store limit p).Halts src :=
  run_halts_of_not_leftRecursive hcustom.leaveEnds hleft limit src

/-- A run with debugging on is cut off only where the run without is. -/
theorem debug_ne_unfinished {d : Nat} (h : (runTo store { limit } d p src).ending ≠ .unfinished)
    (debug : Bool) : (runTo store { limit, debug } d p src).ending ≠ .unfinished := by
  cases debug with
  | false => exact h
  | true =>
    rcases stopsOrAlike_debug store limit d p src with ⟨_, ⟨bound, -, rfl⟩, hstopped⟩ | halike
    · exact fun hcut => by cases hstopped.symm.trans hcut
    · exact fun hcut => h (halike.symm.trans hcut)

/-- Without left recursion, every run comes to an end as soon as calls may be nested deeply enough,
with a result or a fault, and more depth changes nothing about that. Custom parsers have to leave an
end of their input where they succeed. -/
theorem ends_alike_from_some_depth (hcustom : store.CustomsLeaveEnds p)
    (hleft : ¬ store.LeftRecursive p) (limit : Limit) (debug : Bool) (src : Text) :
    ∃ e d, e ≠ .unfinished ∧ ∀ k, d ≤ k →
      (p.parse store { limit, debug, depth := k } src).ending = e := by
  obtain ⟨d, hd⟩ := run_eventually store limit p src
  have hhalts := run_halts_of_not_leftRecursive hcustom hleft limit src
  have hplain : (runTo store { limit } d p src).ending ≠ .unfinished := by
    rw [hd d (Nat.le_refl d)]
    exact hhalts.not_unfinished
  have hne := debug_ne_unfinished hplain debug
  refine ⟨_, d, hne, fun k hk => ?_⟩
  rw [parse, runTo_with_depth { limit, debug }]
  exact runTo_mono hk hne

end Parser

/-! ## Lists with remarks -/

namespace Remarked

def list : Forward := ⟨0, "list"⟩

/-- The rest of a line, from a number sign on. Where there is none, the failure has no place. -/
def readRemark : Text → Except Fault Result
  | [] => .ok (.failure "no remark" none)
  | c :: rest =>
    if c = CodePoint.ofChar '#' then .ok (.success .nothing (rest.dropWhile (· ≠ .lineFeed)))
    else .ok (.failure "no remark" none)

theorem suffix_of_readRemark {src rest : Text} {v : Value}
    (h : readRemark src = .ok (.success v rest)) : rest <:+ src := by
  unfold readRemark at h
  split at h
  · cases h
  · split at h
    · cases h
      exact (List.dropWhile_suffix _).trans (List.suffix_cons _ _)
    · cases h

def remark : Parser := .custom readRemark "remark"

def remarks : Parser := .optional remark

def opening : Parser := .character '('

def closing : Parser := .character ')'

def inner : Parser := .many (.forward list)

/-- A list may begin with a remark, and it holds further lists. -/
def group : Parser := .seq [remarks, opening, inner, closing]

def store : Store := ⟨[some group]⟩

theorem calls_list {q : Parser} : store.Calls (.forward list) q ↔ q = group := by
  have htarget : store.target? list = some group := rfl
  simp [Store.Calls, Body.Has, Parser.forward, Parser.body, htarget, eq_comm]

theorem calls_group {q : Parser} : store.Calls group q ↔
    q = remarks ∨ q = opening ∨ q = inner ∨ q = closing := by
  simp [Store.Calls, Body.Has, group, Parser.seq, Parser.body]

theorem calls_remarks {q : Parser} : store.Calls remarks q ↔ q = remark := by
  simp [Store.Calls, Body.Has, remarks, Parser.optional, Parser.body]

theorem calls_inner {q : Parser} : store.Calls inner q ↔ q = .forward list := by
  simp [Store.Calls, Body.Has, inner, Parser.many, Parser.body]

theorem not_calls {p q : Parser} (hp : p = remark ∨ p = opening ∨ p = closing) :
    ¬ store.Calls p q := by
  rcases hp with rfl | rfl | rfl
  all_goals
    rintro (h | ⟨f, ⟨⟩, -⟩)
    exact h.elim

theorem reaches_list {q : Parser} (h : store.Reaches (.forward list) q) :
    q = .forward list ∨ q = group ∨ q = remarks ∨ q = inner ∨
      q = remark ∨ q = opening ∨ q = closing := by
  induction h with
  | refl => simp
  | tail _ hcall ih =>
    rcases ih with rfl | rfl | rfl | rfl | hleaf
    · simp [calls_list.1 hcall]
    · rcases calls_group.1 hcall with rfl | rfl | rfl | rfl <;> simp
    · simp [calls_remarks.1 hcall]
    · simp [calls_inner.1 hcall]
    · exact absurd hcall (not_calls hleaf)

theorem customsLeaveEnds : store.CustomsLeaveEnds (.forward list) := by
  intro q f hq hf src v rest hread
  rcases reaches_list hq with rfl | rfl | rfl | rfl | rfl | rfl | rfl
  case inr.inr.inr.inr.inl =>
    cases hf
    exact suffix_of_readRemark hread
  all_goals cases hf

/-- A parenthesis is read before the lists inside. -/
theorem callsFirst_group {q : Parser} (h : store.CallsFirst group q) :
    q = remarks ∨ q = opening := by
  rcases h with ⟨before, after, hps, hbefore⟩ | ⟨f, ⟨⟩, -⟩
  rcases before with _ | ⟨p, _ | ⟨p', before⟩⟩
  · exact .inl (List.cons.inj hps).1.symm
  · exact .inr (List.cons.inj (List.cons.inj hps).2).1.symm
  · have hp' : opening = p' := (List.cons.inj (List.cons.inj hps).2).1
    cases hp' ▸ hbefore p' (by simp)

theorem not_leftRecursive : ¬ store.LeftRecursive (.forward list) := by
  refine Store.not_leftRecursive_of_closed
    (T := fun q => q = group ∨ q = remarks ∨ q = remark ∨ q = opening)
    (fun q f hq hf k hcall => ?_) (fun q k hq hcall => ?_) fun q f hq hf => ?_
  · rcases reaches_list hq with rfl | rfl | rfl | rfl | rfl | rfl | rfl
    · exact .inl (calls_list.1 hcall.calls)
    all_goals cases hf
  · rcases hq with rfl | rfl | rfl | rfl
    · rcases callsFirst_group hcall with rfl | rfl <;> simp
    · simp [calls_remarks.1 hcall.calls]
    · exact absurd hcall.calls (not_calls (.inl rfl))
    · exact absurd hcall.calls (not_calls (.inr (.inl rfl)))
  · rcases hq with rfl | rfl | rfl | rfl <;> cases hf

end Remarked

/-- The end of a run where the second list is not closed, with debugging on. -/
theorem ends_alike_from_some_depth_list :
    ∃ e d, e ≠ .unfinished ∧ ∀ k, d ≤ k →
      ((Parser.forward Remarked.list).parse Remarked.store
        { limit := some 640, debug := true, depth := k } "#two\n(()(").ending = e :=
  Parser.ends_alike_from_some_depth Remarked.customsLeaveEnds Remarked.not_leftRecursive
    (some 640) true "#two\n(()("

end Parselet
