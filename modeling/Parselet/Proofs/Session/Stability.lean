import Parselet.Session
import Parselet.Proofs.Grammar.Built
import Parselet.Proofs.Step.Family

/-!
What a session leaves as it is. A forward is defined once and for all, building makes new forwards
only, and so a run that meets no undefined forward is the same run at every later point. The parsers
of a session refer to forwards that were made in it and to no others.
-/

namespace Parselet

/-! ## Stores that grow -/

namespace Store

variable {s s' s'' : Store} {f : Forward} {p : Parser}

/-- Every forward that stands for a parser in `s` stands for it in `s'`. -/
def Keeps (s s' : Store) : Prop := ∀ f p, s.target? f = some p → s'.target? f = some p

theorem Keeps.refl (s : Store) : s.Keeps s := fun _ _ h => h

theorem Keeps.trans (h : s.Keeps s') (h' : s'.Keeps s'') : s.Keeps s'' :=
  fun f p hf => h' f p (h f p hf)

/-- A forward that is made, defined or not, stands for the same when others are made after it. -/
theorem target?_eq_of_isPrefix (h : s.targets <+: s'.targets) (hf : f.id < s.targets.length) :
    s'.target? f = s.target? f := by
  obtain ⟨more, hmore⟩ := h
  rw [target?, target?, ← hmore, List.getElem?_append_left hf]

theorem keeps_of_prefix (h : s.targets <+: s'.targets) : s.Keeps s' := by
  intro f p hf
  rw [target?_eq_of_isPrefix h (lt_length_of_target? hf), hf]

theorem define_of_target? (h : s.target? f = some p) (q : Parser) :
    s.define f q = .error (.redefinedForward f.name) := by
  simp only [define, h]

theorem keeps_define (h : s.define f p = .ok s') : s.Keeps s' := by
  intro g q hg
  by_cases heq : f.id = g.id
  · -- the forward that is defined stood for nothing
    have hsome : s.target? f = some q := by rw [← hg, target?, target?, heq]
    rw [define_of_target? hsome] at h
    cases h
  · rw [target?_eq_some, targets_define h, List.getElem?_set_ne heq]
    exact target?_eq_some.1 hg

end Store

/-! ## Runs in two stores -/

namespace Parser

open Run

variable {s s' : Store}

/-- The first run meets an undefined forward, or the runs are the same. -/
def UndefinedOrSame {α : Type} (r : Bool → Run α) : Prop :=
  (∃ name, (r false).ending = .raised (.undefinedForward name)) ∨ r false = r true

theorem undefinedOrSame_compositional : Compositional UndefinedOrSame where
  const _ := .inr rfl
  bind := by
    intro α β r next hr hnext
    rcases hr with ⟨name, hname⟩ | heq
    · exact .inl ⟨name, ending_bind_of_raised hname⟩
    · cases hfalse : (r false).ending with
      | value a =>
        rcases hnext a with ⟨name, hname⟩ | hsame
        · exact .inl ⟨name, (ending_bind_of_value hfalse).trans hname⟩
        · right
          simp only [Bind.bind, Run.bind, ← heq, hfalse, hsame]
      | raised fault =>
        right
        simp only [Bind.bind, Run.bind, ← heq, hfalse]
      | unfinished =>
        right
        simp only [Bind.bind, Run.bind, ← heq, hfalse]

/-- A run in a store is the same run in a store that keeps what forwards stand for, unless it meets
a forward that stands for nothing yet. -/
theorem runTo_of_keeps (h : s.Keeps s') (settings : Settings) (d : Nat) (p : Parser) (src : Text) :
    (∃ name, (runTo s settings d p src).ending = .raised (.undefinedForward name)) ∨
      runTo s settings d p src = runTo s' settings d p src := by
  let store (later : Bool) : Store := if later then s' else s
  show UndefinedOrSame fun later => runTo (store later) settings d p src
  induction d generalizing p src with
  | zero => exact .inr rfl
  | succ d ih =>
    refine undefinedOrSame_compositional.visit ?_ settings p.name src
    refine undefinedOrSame_compositional.eval_of_parts _ (fun q _ => ih q) (fun f hf src => ?_) src
    -- a forward that is defined calls the same parser in both stores
    rw [hf]
    cases htarget : s.target? f with
    | none => exact .inl ⟨f.name, by simp [Body.eval, store, htarget, Step.raise, raise]⟩
    | some q =>
      have htarget' := h f q htarget
      have hq := ih q src
      simpa [UndefinedOrSame, Body.eval, store, htarget, htarget'] using hq

/-- Both runs are one. -/
def Same {α : Type} (r : Bool → Run α) : Prop := r false = r true

theorem same_compositional : Compositional Same where
  const _ := rfl
  bind := by
    intro α β r next hr hnext
    have hnext : next false = next true := funext hnext
    show r false >>= next false = r true >>= next true
    rw [hr, hnext]

/-- A run depends on the forwards that the parser reaches and on no others. -/
theorem runTo_of_agree (settings : Settings) (d : Nat) {p : Parser}
    (h : ∀ q f, s.Reaches p q → q.body = .forward f → s'.target? f = s.target? f) (src : Text) :
    runTo s settings d p src = runTo s' settings d p src := by
  let store (later : Bool) : Store := if later then s' else s
  show Same fun later => runTo (store later) settings d p src
  induction d generalizing p src with
  | zero => rfl
  | succ d ih =>
    have hcall (q : Parser) (hq : s.Calls p q) (src : Text) :
        Same fun later => runTo (store later) settings d q src :=
      ih (fun q' f hq' => h q' f (.head hq hq')) src
    refine same_compositional.visit ?_ settings p.name src
    refine same_compositional.eval_of_parts _ (fun q hq => hcall q (.inl hq)) (fun f hf src => ?_)
      src
    have hagree := h p f .refl hf
    rw [hf]
    cases htarget : s.target? f with
    | none => simp [Same, Body.eval, store, hagree, htarget]
    | some q =>
      have hq := hcall q (.inr ⟨f, hf, htarget⟩) src
      simpa [Same, Body.eval, store, hagree, htarget] using hq

end Parser

/-! ## Sessions -/

namespace Session

variable {limit : Limit} {s s' : Session} {id : Text} {e : Expr} {f : Forward} {p q : Parser}
  {store : Store}

/-- The session after a sequence of commands. -/
def after (limit : Limit) (s : Session) : List Command → Session
  | [] => s
  | c :: cs => after limit (s.step limit c).1 cs

theorem prefix_of_build (h : s.build limit e = .ok (p, store)) :
    s.store.targets <+: store.targets :=
  (e.build_makes (fun _ => True) (fun _ => True) limit s.bindings (.inl fun _ _ => trivial) h).1

theorem define_eq_ok_iff :
    s.define limit id e = .ok s' ↔
      ∃ p store, s.build limit e = .ok (p, store) ∧ ∃ f, s.forward id = .ok f ∧
        ∃ store', store.define f p = .ok store' ∧ s' = { s with store := store' } := by
  simp only [define, except_bind_eq_ok_iff, Prod.exists, Pure.pure, Except.pure, Except.ok.injEq,
    eq_comm (a := s')]

theorem forward_eq_ok_iff :
    s.forward id = .ok f ↔ ∃ b, s.bindings.lookup id = some b ∧ b.forward? = some f := by
  unfold forward
  cases s.bindings.lookup id with
  | none => simp
  | some b => cases hb : b.forward? <;> simp [hb]

/-- A step keeps what forwards stand for, whether or not the command is refused. -/
theorem step_keeps (limit : Limit) (s : Session) (c : Command) :
    s.store.Keeps (s.step limit c).1.store := by
  cases c with
  | forward id name => exact Store.keeps_of_prefix (s.store.prefix_allocate name)
  | define id e =>
    simp only [step]
    split
    · exact .refl _
    · next s' h =>
      obtain ⟨p, store, hbuild, f, -, store', hdefine, rfl⟩ := define_eq_ok_iff.1 h
      exact (Store.keeps_of_prefix (prefix_of_build hbuild)).trans (Store.keeps_define hdefine)
  | bind id e =>
    simp only [step]
    split
    · exact .refl _
    · next h => exact Store.keeps_of_prefix (prefix_of_build h)
  | query e q =>
    simp only [step]
    split <;> exact .refl _

theorem after_keeps (limit : Limit) (s : Session) (cs : List Command) :
    s.store.Keeps (s.after limit cs).store := by
  induction cs generalizing s with
  | nil => exact .refl _
  | cons c cs ih => exact (s.step_keeps limit c).trans (ih _)

theorem step_query (limit : Limit) (s : Session) (e : Expr) (q : Query) :
    (s.step limit (.query e q)).1 = s := by
  simp only [step]
  split <;> rfl

/-- A command that is refused changes nothing. -/
theorem step_of_refused {c : Command} {fault : Fault}
    (h : (s.step limit c).2 = .refused fault) : (s.step limit c).1 = s := by
  cases c with
  | forward => cases h
  | define id e =>
    simp only [step] at h ⊢
    split at h
    · rfl
    · cases h
  | bind id e =>
    simp only [step] at h ⊢
    split at h
    · rfl
    · cases h
  | query e q => exact s.step_query limit e q

/-- Binding a name adds forwards at the end of the store, if any. -/
theorem step_bind_prefix (limit : Limit) (s : Session) (id : Text) (e : Expr) :
    s.store.targets <+: (s.step limit (.bind id e)).1.store.targets := by
  simp only [step]
  split
  · exact List.prefix_rfl
  · next h => exact prefix_of_build h

theorem step_bind_lookup {id' : Text} (hne : id' ≠ id) :
    (s.step limit (.bind id e)).1.bindings.lookup id' = s.bindings.lookup id' := by
  simp only [step]
  split
  · rfl
  · have hne : (id' == id) = false := by simpa using hne
    simp only [bindName, List.lookup_cons, hne]

/-- The definition of a forward that has been made. -/
theorem step_define (hf : s.forward id = .ok f) (hbuild : s.build limit e = .ok (p, store)) :
    s.step limit (.define id e) =
      match store.define f p with
      | .error fault => (s, .refused fault)
      | .ok store' => ({ s with store := store' }, .defined) := by
  have hdefine : s.define limit id e = (store.define f p).map ({ s with store := · }) := by
    simp only [define, hbuild, hf]
    show store.define f p >>= _ = _
    cases store.define f p <;> rfl
  simp only [step, hdefine]
  cases store.define f p <;> rfl

theorem step_define_of_none (hf : s.forward id = .ok f) (hmade : f.id < s.store.targets.length)
    (hbuild : s.build limit e = .ok (p, store)) (hnone : s.store.target? f = none) :
    ∃ store', store'.target? f = some p ∧
      s.step limit (.define id e) = ({ s with store := store' }, .defined) := by
  have hprefix := prefix_of_build hbuild
  have hnone : store.target? f = none := by rw [Store.target?_eq_of_isPrefix hprefix hmade, hnone]
  have hdefine := Store.define_eq_ok (p := p) hnone
  refine ⟨_, Store.target?_define hdefine (Nat.lt_of_lt_of_le hmade hprefix.length_le), ?_⟩
  rw [step_define hf hbuild, hdefine]

theorem step_define_of_some (hf : s.forward id = .ok f) (hsome : s.store.target? f = some q)
    (hbuild : s.build limit e = .ok (p, store)) :
    s.step limit (.define id e) = (s, .refused (.redefinedForward f.name)) := by
  have hsome := Store.keeps_of_prefix (prefix_of_build hbuild) f q hsome
  rw [step_define hf hbuild, Store.define_of_target? hsome]

/-! ## Forwards that are made in a session -/

/-- Custom parsers have no parts and are no forwards, so it does not matter here what they do. -/
def IsCustom (p : Parser) : Prop := ∃ f, p.body = .custom f

theorem IsCustom.not_has (hp : IsCustom p) : ¬ p.body.Has q := by
  obtain ⟨f, hf⟩ := hp
  rw [hf]
  exact id

theorem IsCustom.ne_forward (hp : IsCustom p) (f : Forward) : p.body ≠ .forward f := by
  obtain ⟨g, hg⟩ := hp
  rw [hg]
  nofun

/-- Parsers that come to forwards below `n` only. -/
abbrev MadeBelow (n : Nat) : Parser → Prop := Parser.MadeFrom IsCustom fun f => f.id < n

/-- The forwards that the names and the parsers of a session refer to are below `n`. -/
structure RefersBelow (n : Nat) (s : Session) : Prop where
  store : s.store.All (MadeBelow n)
  bindings : s.bindings.All (MadeBelow n)
  forwards : ∀ id f, s.forward id = .ok f → f.id < n

/-- A session refers only to forwards that it has made: they are below `n` if those are. -/
def Closed (s : Session) : Prop := ∀ n, s.store.targets.length ≤ n → s.RefersBelow n

theorem RefersBelow.bindName {n : Nat} {b : Binding} (hs : s.RefersBelow n)
    (hb : MadeBelow n b.parser) (hf : ∀ f, b.forward? = some f → f.id < n) (id : Text) :
    (s.bindName id b).RefersBelow n := by
  refine ⟨hs.store, hs.bindings.cons hb id, fun id' f h => ?_⟩
  obtain ⟨b', hlookup, hf'⟩ := forward_eq_ok_iff.1 h
  rw [Session.bindName, List.lookup_cons] at hlookup
  split at hlookup
  · cases hlookup
    exact hf f hf'
  · exact hs.forwards id' f (forward_eq_ok_iff.2 ⟨b', hlookup, hf'⟩)

/-- What is built in a session comes to forwards that are there then. -/
theorem RefersBelow.build {n : Nat} (hs : s.RefersBelow n) (h : s.build limit e = .ok (p, store))
    (hn : store.targets.length ≤ n) : MadeBelow n p ∧ store.All (MadeBelow n) :=
  (e.build_makes IsCustom (fun f => f.id < n) limit s.bindings (.inl fun f _ => ⟨f, rfl⟩) h).2
    (fun _ hf => hf.trans_le hn) hs.bindings hs.store

theorem body_of_binding {env : Bindings} (h : (e.binding env p).forward? = some f) :
    p.body = .forward f := by
  unfold Expr.binding at h
  split at h
  · next hbody =>
    cases h
    exact hbody
  · cases h

theorem parser_binding (env : Bindings) (e : Expr) (p : Parser) :
    (e.binding env p).parser = p := by
  unfold Expr.binding
  split <;> rfl

theorem closed_empty : empty.Closed := by
  intro n _
  refine ⟨fun f p h => ?_, fun id b h => ?_, fun id f h => ?_⟩
  · cases h
  · cases h
  · cases h

/-- Every step makes the forwards that it needs. -/
theorem Closed.step (hs : s.Closed) (limit : Limit) (c : Command) : (s.step limit c).1.Closed := by
  cases c with
  | forward id name =>
    intro n hn
    have hlt : s.store.targets.length + 1 ≤ n := by
      simpa [Session.step, bindName, Store.allocate] using hn
    have hold := hs n (Nat.le_of_succ_le hlt)
    have hnew : RefersBelow n { s with store := (s.store.allocate name).2 } :=
      ⟨hold.store.allocate name, hold.bindings, hold.forwards⟩
    refine hnew.bindName (.forward _ hlt) (fun f hf => ?_) id
    cases hf
    exact hlt
  | define id e =>
    simp only [Session.step]
    split
    · exact hs
    · next s' h =>
      obtain ⟨p, store, hbuild, f, -, store', hdefine, rfl⟩ := define_eq_ok_iff.1 h
      intro n hn
      have hstore : store.targets.length ≤ n := (Store.length_define hdefine).symm.trans_le hn
      -- a definition makes no forward, but what it is built from may have made some
      have hold := hs n ((prefix_of_build hbuild).length_le.trans hstore)
      obtain ⟨hp, hall⟩ := hold.build hbuild hstore
      exact ⟨hall.define hp hdefine, hold.bindings, hold.forwards⟩
  | bind id e =>
    simp only [Session.step]
    split
    · exact hs
    · next p store hbuild =>
      intro n hn
      have hold := hs n ((prefix_of_build hbuild).length_le.trans hn)
      obtain ⟨hp, hall⟩ := hold.build hbuild hn
      have hnew : RefersBelow n { s with store } := ⟨hall, hold.bindings, hold.forwards⟩
      refine hnew.bindName (by rwa [parser_binding]) (fun f hf => ?_) id
      exact hp.known_of_forward (fun _ f h => h.ne_forward f) (body_of_binding hf)
  | query e q => rwa [step_query]

theorem Closed.after (hs : s.Closed) (limit : Limit) (cs : List Command) :
    (s.after limit cs).Closed := by
  induction cs generalizing s with
  | nil => exact hs
  | cons c cs ih => exact ih (hs.step limit c)

/-- A run of such a parser comes to such parsers only. -/
theorem lt_of_reaches {n : Nat} (hstore : store.All (MadeBelow n)) (hp : MadeBelow n p)
    (hq : store.Reaches p q) (hf : q.body = .forward f) : f.id < n :=
  (hp.of_reaches (fun _ _ h => h.not_has) (fun _ f t _ _ ht => hstore f t ht) hq).known_of_forward
    (fun _ f h => h.ne_forward f) hf

/-- Forwards are written once: a definition sets a forward that has no target, and is refused, with
nothing changed, for one that has; a target that is set stays. Queries and refused commands change
nothing at all, and a name that is bound again leaves the other names and all parsers alone that
refer to forwards made before. So a run that meets no undefined forward is the same run whenever it
is repeated. In a session that began empty, the forwards that names are bound to, and those that the
parsers come to which are bound or built in it, have all been made in it. -/
theorem written_once_and_stable (limit : Limit) (s : Session) (cs : List Command) :
    (∀ f p, s.store.target? f = some p → (s.after limit cs).store.target? f = some p) ∧
      (∀ id e f p store, s.forward id = .ok f → s.build limit e = .ok (p, store) →
        (f.id < s.store.targets.length → s.store.target? f = none →
          ∃ store', store'.target? f = some p ∧
            s.step limit (.define id e) = ({ s with store := store' }, .defined)) ∧
        ∀ q, s.store.target? f = some q →
          s.step limit (.define id e) = (s, .refused (.redefinedForward f.name))) ∧
      (∀ c, (∃ e q, c = .query e q) ∨ (∃ fault, (s.step limit c).2 = .refused fault) →
        (s.step limit c).1 = s) ∧
      (∀ id e, (∀ id', id' ≠ id →
          (s.step limit (.bind id e)).1.bindings.lookup id' = s.bindings.lookup id') ∧
        ∀ p : Parser, (∀ (q : Parser) f, s.store.Reaches p q → q.body = .forward f →
            f.id < s.store.targets.length) → ∀ settings src,
          p.parse (s.step limit (.bind id e)).1.store settings src =
            p.parse s.store settings src) ∧
      (∀ (p : Parser) settings src,
        (∀ name, (p.parse s.store settings src).ending ≠ .raised (.undefinedForward name)) →
          p.parse (s.after limit cs).store settings src = p.parse s.store settings src) ∧
      ∀ limit' earlier, s = empty.after limit' earlier →
        (∀ id f, s.forward id = .ok f → f.id < s.store.targets.length) ∧
        (∀ id b, s.bindings.lookup id = some b → ∀ q f, s.store.Reaches b.parser q →
          q.body = .forward f → f.id < s.store.targets.length) ∧
        ∀ e p store, s.build limit e = .ok (p, store) → ∀ q f, store.Reaches p q →
          q.body = .forward f → f.id < store.targets.length := by
  refine ⟨after_keeps limit s cs, ?_, ?_, ?_, ?_, ?_⟩
  · intro id e f p store hf hbuild
    exact ⟨fun hmade hnone => step_define_of_none hf hmade hbuild hnone,
      fun q hsome => step_define_of_some hf hsome hbuild⟩
  · rintro c (⟨e, q, rfl⟩ | ⟨fault, hrefused⟩)
    · exact s.step_query limit e q
    · exact step_of_refused hrefused
  · intro id e
    refine ⟨fun id' hne => step_bind_lookup hne, fun p hmade settings src => ?_⟩
    have hprefix := s.step_bind_prefix limit id e
    exact (Parser.runTo_of_agree settings _ (fun q f hq hf =>
      Store.target?_eq_of_isPrefix hprefix (hmade q f hq hf)) src).symm
  · intro p settings src hdefined
    rcases Parser.runTo_of_keeps (after_keeps limit s cs) settings settings.depth p src with
      ⟨name, hname⟩ | hsame
    · exact absurd hname (hdefined name)
    · exact hsame.symm
  · intro limit' earlier hs
    have hclosed : s.Closed := hs ▸ closed_empty.after limit' earlier
    have hnow := hclosed _ le_rfl
    refine ⟨hnow.forwards, fun id b hlookup q f => ?_, fun e p store hbuild q f => ?_⟩
    · exact lt_of_reaches hnow.store (hnow.bindings id b hlookup)
    · obtain ⟨hp, hstore⟩ := (hclosed _ (prefix_of_build hbuild).length_le).build hbuild le_rfl
      exact lt_of_reaches hstore hp

/-- A digit in parentheses, through a copy of a forward that was made before the definition. -/
theorem written_once_and_stable_nested :
    let nested : Expr := .orElse .digit (.between (.character "(") (.ref "p") (.character ")"))
    let s := Session.empty.after none
      [.forward "p" "p", .bind "q" (.named (.ref "p") "q"), .define "p" nested]
    let copy := Parser.mk "q" (.forward ⟨0, "p"⟩)
    (copy.parse s.store { depth := 12 } "((7))x").ending = .value (.success (.text "7") "x") ∧
      s.step none (.define "p" .digit) = (s, .refused (.redefinedForward "p")) ∧
        (∀ cs, copy.parse (s.after none cs).store { depth := 12 } "((7))x" =
          copy.parse s.store { depth := 12 } "((7))x") ∧
          ∀ q f, s.store.Reaches copy q → q.body = .forward f →
            f.id < s.store.targets.length := by
  intro nested s copy
  have hending : (copy.parse s.store { depth := 12 } "((7))x").ending =
      .value (.success (.text "7") "x") := by decide +kernel
  refine ⟨hending, ?_, fun cs => ?_, ?_⟩
  · exact ((written_once_and_stable none s []).2.1 "p" .digit ⟨0, "p"⟩ _ _ rfl rfl).2 _ rfl
  · refine (written_once_and_stable none s cs).2.2.2.2.1 copy _ _ fun name h => ?_
    rw [hending] at h
    cases h
  · have hmade := (written_once_and_stable none s []).2.2.2.2.2 none _ rfl
    exact hmade.2.1 "q" _ rfl

end Session

end Parselet
