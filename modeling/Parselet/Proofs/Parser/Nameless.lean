import Parselet.Parser.Combinator
import Parselet.Proofs.Parser.Store
import Parselet.Proofs.Step.Family

/-!
Parsers without their names. A name is shown in logs and handed on to the names of larger parsers;
what a run does, and which calls it makes, is that of the parser without any names.
-/

namespace Parselet

mutual

/-- The parser with all names in it taken away, also those of parsers that a continuation gives. -/
def Parser.nameless : Parser → Parser
  | .mk _ b => .mk [] b.nameless

def Body.nameless : Body → Body
  | .map p f => .map p.nameless f
  | .flatMap p next => .flatMap p.nameless fun limit v => Parser.namelessResult (next limit v)
  | .orElse p q => .orElse p.nameless q.nameless
  | .many p => .many p.nameless
  | .nonempty p => .nonempty p.nameless
  | .optional p => .optional p.nameless
  | .sepBy content separator => .sepBy content.nameless separator.nameless
  | .seq ps => .seq (Parser.namelessAll ps)
  | .oneOf ps => .oneOf (Parser.namelessAll ps)
  | .lookahead p => .lookahead p.nameless
  | .inverted p => .inverted p.nameless
  | b => b

def Parser.namelessAll : List Parser → List Parser
  | [] => []
  | p :: ps => p.nameless :: Parser.namelessAll ps

def Parser.namelessResult : Except Fault Parser → Except Fault Parser
  | .error fault => .error fault
  | .ok p => .ok p.nameless

end

/-- The forwards keep their numbers, and so what they are known by in the store. -/
def Store.nameless (store : Store) : Store := ⟨store.targets.map (Option.map Parser.nameless)⟩

/-- What a log says besides the name of the parser. -/
def Event.nameless : Event → Event
  | .enter _ src => .enter [] src
  | .leave _ result => .leave [] result

namespace Parser

@[simp] theorem namelessAll_eq_map (ps : List Parser) : namelessAll ps = ps.map nameless := by
  induction ps with
  | nil => rfl
  | cons p ps ih => rw [namelessAll, ih, List.map_cons]

@[simp] theorem namelessResult_eq_map (e : Except Fault Parser) :
    namelessResult e = e.map nameless := by
  cases e <;> rfl

theorem body_nameless (p : Parser) : p.nameless.body = p.body.nameless := by
  cases p
  rfl

end Parser

theorem Store.target?_nameless (store : Store) (f : Forward) :
    store.nameless.target? f = (store.target? f).map Parser.nameless := by
  rw [target?, target?, nameless, List.getElem?_map]
  cases store.targets[f.id]? with
  | none => rfl
  | some p => rfl

/-- Taking names away is the same as calling nameless parsers. -/
theorem Body.eval_nameless (store : Store) (limit : Limit) (call : Parser → Step) (b : Body) :
    b.nameless.eval store.nameless limit call =
      b.eval store limit fun p => call p.nameless := by
  -- most parts stand alone; the others are in a list, behind a continuation or in the store
  cases b with
  | flatMap p next =>
    simp only [nameless, eval, Parser.namelessResult_eq_map]
    congr 1
    funext v
    cases next limit v <;> rfl
  | seq ps | oneOf ps =>
    simp only [nameless, eval, Parser.namelessAll_eq_map, List.map_map]
    rfl
  | forward f =>
    simp only [nameless, eval, Store.target?_nameless]
    cases store.target? f <;> rfl
  | _ => rfl

namespace Run

variable {α β : Type} {r r' r'' : Run α}

/-- Both runs end equally, and their logs agree line by line but for the names. -/
def SameButNames (r r' : Run α) : Prop :=
  r.ending = r'.ending ∧ r.log.map Event.nameless = r'.log.map Event.nameless

theorem SameButNames.refl (r : Run α) : SameButNames r r := ⟨rfl, rfl⟩

theorem SameButNames.symm (h : SameButNames r r') : SameButNames r' r := ⟨h.1.symm, h.2.symm⟩

theorem SameButNames.trans (h : SameButNames r r') (h' : SameButNames r' r'') :
    SameButNames r r'' := ⟨h.1.trans h'.1, h.2.trans h'.2⟩

theorem sameButNames_emit {event event' : Event} (h : event.nameless = event'.nameless) :
    SameButNames (emit event) (emit event') :=
  ⟨rfl, congrArg (fun line => [line]) h⟩

theorem SameButNames.bind {next next' : α → Run β} (h : SameButNames r r')
    (hnext : ∀ a, SameButNames (next a) (next' a)) : SameButNames (r >>= next) (r' >>= next') := by
  obtain ⟨hending, hlog⟩ := h
  -- what follows is run on both sides, or on neither
  cases hr : r.ending with
  | value a =>
    have hr' := hending.symm.trans hr
    obtain ⟨hendingNext, hlogNext⟩ := hnext a
    simp only [SameButNames, Bind.bind, Run.bind, hr, hr', List.map_append, hlog, hlogNext]
    exact ⟨hendingNext, trivial⟩
  | raised fault =>
    have hr' := hending.symm.trans hr
    simp only [SameButNames, Bind.bind, Run.bind, hr, hr', hlog, and_self]
  | unfinished =>
    have hr' := hending.symm.trans hr
    simp only [SameButNames, Bind.bind, Run.bind, hr, hr', hlog, and_self]

theorem sameButNames_compositional :
    Compositional fun {α} (r : Bool → Run α) => SameButNames (r false) (r true) where
  const r := .refl r
  bind hr hnext := hr.bind hnext

/-- The two lines around a call may show different names. -/
theorem SameButNames.visit {r r' : Run Result} (h : SameButNames r r') (s : Settings)
    (name name' src : Text) : SameButNames (s.visit name src r) (s.visit name' src r') := by
  unfold Settings.visit
  split
  · refine (sameButNames_emit rfl).bind fun _ => h.bind fun result => ?_
    exact (SameButNames.refl _).bind fun _ => (sameButNames_emit rfl).bind fun _ => .refl _
  · exact h

end Run

namespace Parser

/-- A parser runs as it does without its names. -/
theorem runTo_nameless (store : Store) (s : Settings) (d : Nat) (p : Parser) (src : Text) :
    (runTo store s d p src).SameButNames (runTo store.nameless s d p.nameless src) := by
  induction d generalizing p src with
  | zero => exact .refl _
  | succ d ih =>
    -- both runs make the calls of one body, the second one without their names
    let call : Bool → Parser → Step := fun bare =>
      cond bare (fun q => runTo store.nameless s d q.nameless) (runTo store s d)
    have hcall (q : Parser) (src : Text) : (call false q src).SameButNames (call true q src) :=
      ih q src
    have hbody : (p.body.eval store s.limit (call false) src).SameButNames
        (p.body.eval store s.limit (call true) src) :=
      Run.sameButNames_compositional.eval hcall p.body src
    have hnameless := Body.eval_nameless store s.limit (runTo store.nameless s d) p.body
    rw [← body_nameless] at hnameless
    rw [runTo, runTo, hnameless]
    exact hbody.visit s p.name p.nameless.name src

/-- The parsers differ at most in names. -/
def Renamed (p q : Parser) : Prop := p.nameless = q.nameless

end Parser

/-- The forwards stand for parsers that differ at most in names. -/
def Store.Renamed (store store' : Store) : Prop := store.nameless = store'.nameless

theorem Store.Renamed.refl (store : Store) : store.Renamed store := rfl

namespace Parser

variable {p p' q q' k k' : Parser} {ps ps' : List Parser} {name name' : Text} {b b' : Body}

/-- Other names make no difference to a run but for those that are shown in the log. -/
theorem Renamed.runTo {store store' : Store} (hp : p.Renamed q) (hstore : store.Renamed store')
    (s : Settings) (d : Nat) (src : Text) :
    (Parser.runTo store s d p src).SameButNames (Parser.runTo store' s d q src) := by
  have hnameless := runTo_nameless store s d p src
  rw [hp, hstore] at hnameless
  exact hnameless.trans (runTo_nameless store' s d q src).symm

/-! ## Combinators of renamed parsers -/

theorem Renamed.refl (p : Parser) : p.Renamed p := rfl

theorem renamed_mk (h : b.nameless = b'.nameless) : (mk name b).Renamed (mk name' b') :=
  congrArg (mk []) h

theorem Renamed.named (hp : p.Renamed p') : (p.named name).Renamed p' := by
  cases p
  exact hp

theorem Renamed.named_right (hp : p.Renamed p') : p.Renamed (p'.named name) := by
  cases p'
  exact hp

theorem Renamed.map (hp : p.Renamed p') (f : Value.Function) : (p.map f).Renamed (p'.map f) :=
  renamed_mk (congrArg (Body.map · f) hp)

theorem Renamed.flatMap {next next' : Limit → Value → Except Fault Parser} (hp : p.Renamed p')
    (hnext : ∀ limit v, (next limit v).map nameless = (next' limit v).map nameless) :
    (p.flatMap next).Renamed (p'.flatMap next') := by
  refine renamed_mk (congrArg₂ Body.flatMap hp ?_)
  funext limit v
  rw [namelessResult_eq_map, namelessResult_eq_map, hnext]

theorem Renamed.orElse (hp : p.Renamed p') (hq : q.Renamed q') :
    (p.orElse q).Renamed (p'.orElse q') :=
  renamed_mk (congrArg₂ Body.orElse hp hq)

theorem Renamed.many (hp : p.Renamed p') : p.many.Renamed p'.many :=
  renamed_mk (congrArg Body.many hp)

theorem Renamed.many1 (hp : p.Renamed p') : p.many1.Renamed p'.many1 :=
  renamed_mk (congrArg Body.nonempty hp.many)

theorem Renamed.optional (hp : p.Renamed p') : p.optional.Renamed p'.optional :=
  renamed_mk (congrArg Body.optional hp)

theorem Renamed.sepBy (hp : p.Renamed p') (hq : q.Renamed q') :
    (p.sepBy q).Renamed (p'.sepBy q') :=
  renamed_mk (congrArg₂ Body.sepBy hp hq)

theorem Renamed.sepBy1 (hp : p.Renamed p') (hq : q.Renamed q') :
    (p.sepBy1 q).Renamed (p'.sepBy1 q') :=
  renamed_mk (congrArg Body.nonempty (hp.sepBy hq))

theorem namelessAll_eq_of_forall₂ (h : List.Forall₂ Renamed ps ps') :
    namelessAll ps = namelessAll ps' := by
  induction h with
  | nil => rfl
  | cons hp _ ih => exact congrArg₂ List.cons hp ih

theorem renamed_seq (h : List.Forall₂ Renamed ps ps') : (seq ps).Renamed (seq ps') :=
  renamed_mk (congrArg Body.seq (namelessAll_eq_of_forall₂ h))

theorem renamed_oneOf (h : List.Forall₂ Renamed ps ps') : (oneOf ps).Renamed (oneOf ps') :=
  renamed_mk (congrArg Body.oneOf (namelessAll_eq_of_forall₂ h))

theorem Renamed.lookahead (hp : p.Renamed p') : p.lookahead.Renamed p'.lookahead :=
  renamed_mk (congrArg Body.lookahead hp)

theorem Renamed.inverted (hp : p.Renamed p') : p.inverted.Renamed p'.inverted :=
  renamed_mk (congrArg Body.inverted hp)

theorem Renamed.andThen (hp : p.Renamed p') (hq : q.Renamed q') :
    (p.andThen q).Renamed (p'.andThen q') := by
  have hflatMap : (p.flatMap fun _ _ => .ok q).Renamed (p'.flatMap fun _ _ => .ok q') :=
    hp.flatMap fun _ _ => congrArg Except.ok hq
  exact hflatMap.named.named_right

theorem Renamed.followedBy (hp : p.Renamed p') (hq : q.Renamed q') :
    (p.followedBy q).Renamed (p'.followedBy q') := by
  have hflatMap : (p.flatMap fun _ v => .ok (q.map fun _ _ => .ok v)).Renamed
      (p'.flatMap fun _ v => .ok (q'.map fun _ _ => .ok v)) :=
    hp.flatMap fun _ _ => congrArg Except.ok (hq.map _)
  exact hflatMap.named.named_right

theorem Renamed.between (hp : p.Renamed p') (hq : q.Renamed q') (hk : k.Renamed k') :
    (between p q k).Renamed (Parser.between p' q' k') :=
  ((hp.andThen hq).followedBy hk).named.named_right

end Parser

end Parselet
