import Mathlib.Data.List.Forall2
import Parselet.Grammar.Sample
import Parselet.Grammar.Expr
import Parselet.Proofs.Parser.Nameless

/-!
Expressions that differ at most in the names of what they describe. Building them fails alike, or
gives parsers that differ at most in names, so that runs of these parsers do.
-/

namespace Parselet

mutual

/-- The expression without its named copies, and with all custom parsers under one name. A forward
keeps its name, by which a fault refers to it. -/
def Expr.bare : Expr → Expr
  | .many e => .many e.bare
  | .many1 e => .many1 e.bare
  | .optional e => .optional e.bare
  | .lookahead e => .lookahead e.bare
  | .inverted e => .inverted e.bare
  | .seq es => .seq (Expr.bareAll es)
  | .oneOf es => .oneOf (Expr.bareAll es)
  | .between opening e closing => .between opening.bare e.bare closing.bare
  | .sepBy e separator => .sepBy e.bare separator.bare
  | .sepBy1 e separator => .sepBy1 e.bare separator.bare
  | .map e f => .map e.bare f
  | .flatMap e next => .flatMap e.bare next.bare
  | .named e _ => e.bare
  | .orElse a b => .orElse a.bare b.bare
  | .andThen a b => .andThen a.bare b.bare
  | .followedBy a b => .followedBy a.bare b.bare
  | .lexeme e => .lexeme e.bare
  | .commaList e => .commaList e.bare
  | .custom f _ => .custom f []
  | .fix id name e => .fix id name e.bare
  | e => e

def Expr.bareAll : List Expr → List Expr
  | [] => []
  | e :: es => e.bare :: Expr.bareAll es

def Continuation.bare : Continuation → Continuation
  | .const e => .const e.bare
  | .count e => .count e.bare
  | .cases keys branches other => .cases keys (Expr.bareAll branches) other.bare
  | next => next

end

/-- Both computations fail with the same fault, or both succeed with results in the relation. -/
inductive SameFaultOr {α : Type} (R : α → α → Prop) : Except Fault α → Except Fault α → Prop
  | fault (fault : Fault) : SameFaultOr R (.error fault) (.error fault)
  | ok {a a' : α} : R a a' → SameFaultOr R (.ok a) (.ok a')

namespace SameFaultOr

variable {α β : Type} {R : α → α → Prop} {S : β → β → Prop} {e e' : Except Fault α}

theorem of_eq (h : ∀ a, R a a) (e : Except Fault α) : SameFaultOr R e e := by
  cases e with
  | error fault => exact .fault fault
  | ok a => exact .ok (h a)

theorem bind {next next' : α → Except Fault β} (h : SameFaultOr R e e')
    (hnext : ∀ a a', R a a' → SameFaultOr S (next a) (next' a')) :
    SameFaultOr S (e >>= next) (e' >>= next') := by
  cases h with
  | fault fault => exact .fault fault
  | ok ha => exact hnext _ _ ha

/-- What two computations have in common with a third one they have in common. -/
theorem join {e'' : Except Fault α} {S : α → α → Prop} (h : SameFaultOr R e e'')
    (h' : SameFaultOr R e' e'') (hS : ∀ a a' b, R a b → R a' b → S a a') : SameFaultOr S e e' := by
  cases h with
  | fault fault =>
    cases h'
    exact .fault fault
  | ok ha =>
    cases h' with
    | ok ha' => exact .ok (hS _ _ _ ha ha')

theorem map_nameless {e e' : Except Fault Parser} (h : SameFaultOr Parser.Renamed e e') :
    e.map Parser.nameless = e'.map Parser.nameless := by
  cases h with
  | fault => rfl
  | ok hp => exact congrArg Except.ok hp

end SameFaultOr

/-! ## Stores -/

namespace Store

variable {s s' : Store} {p p' : Parser}

theorem Renamed.length_eq (h : s.Renamed s') : s.targets.length = s'.targets.length := by
  have hlength := congrArg (fun store => store.targets.length) h
  simpa only [nameless, List.length_map] using hlength

theorem Renamed.target? (h : s.Renamed s') (f : Forward) :
    (s.target? f).map Parser.nameless = (s'.target? f).map Parser.nameless := by
  rw [← target?_nameless, ← target?_nameless, h]

theorem Renamed.allocate (h : s.Renamed s') (name : Text) :
    (s.allocate name).1 = (s'.allocate name).1 ∧
      (s.allocate name).2.Renamed (s'.allocate name).2 := by
  refine ⟨congrArg (fun n => (⟨n, name⟩ : Forward)) h.length_eq, ?_⟩
  have htargets := congrArg Store.targets h
  simp only [nameless] at htargets
  simp only [Renamed, nameless, targets_allocate, List.map_append, htargets]

theorem Renamed.define (h : s.Renamed s') (f : Forward) (hp : p.Renamed p') :
    SameFaultOr Renamed (s.define f p) (s'.define f p') := by
  -- a forward that stands for a parser does so on both sides, where another one is refused
  have htarget := h.target? f
  unfold Store.define
  cases hs : s.target? f with
  | some q =>
    obtain ⟨q', hs', -⟩ := Option.map_eq_some_iff.1 (htarget.symm.trans (by rw [hs]; rfl))
    rw [hs']
    exact .fault _
  | none =>
    rw [hs, Option.map_none, eq_comm, Option.map_eq_none_iff] at htarget
    rw [htarget]
    refine .ok ?_
    have htargets := congrArg Store.targets h
    simp only [nameless] at htargets
    simp only [Renamed, nameless, List.map_set, htargets, Option.map_some]
    rw [hp]

end Store

/-! ## Builders -/

/-- From stores that differ at most in names, both builders fail with the same fault, or their
results are in the relation, and the new stores differ at most in names again. -/
def Build.Renames {α : Type} (R : α → α → Prop) (m m' : Build α) : Prop :=
  ∀ ⦃s s' : Store⦄, s.Renamed s' →
    SameFaultOr (fun built built' => R built.1 built'.1 ∧ built.2.Renamed built'.2)
      (m.run s) (m'.run s')

namespace Build

variable {α β : Type} {R : α → α → Prop} {S : β → β → Prop} {m m' : Build α}

theorem renames_pure {a a' : α} (h : R a a') : Renames R (Pure.pure a) (Pure.pure a') :=
  fun _ _ hs => .ok ⟨h, hs⟩

theorem renames_lift {e e' : Except Fault α} (h : SameFaultOr R e e') :
    Renames R (liftM e : Build α) (liftM e' : Build α) := by
  intro s s' hs
  cases h with
  | fault fault => exact .fault fault
  | ok ha => exact .ok ⟨ha, hs⟩

theorem renames_throw (fault : Fault) :
    Renames R (throw fault : Build α) (throw fault : Build α) :=
  fun _ _ _ => .fault fault

theorem Renames.bind {next next' : α → Build β} (hm : Renames R m m')
    (hnext : ∀ a a', R a a' → Renames S (next a) (next' a')) :
    Renames S (m >>= next) (m' >>= next') := by
  intro s s' hs
  rw [StateT.run_bind, StateT.run_bind]
  exact (hm hs).bind fun _ _ h => hnext _ _ h.1 h.2

theorem Renames.map {f f' : α → β} (hm : Renames R m m') (h : ∀ a a', R a a' → S (f a) (f' a')) :
    Renames S (do return f (← m)) (do return f' (← m')) :=
  hm.bind fun _ _ ha => renames_pure (h _ _ ha)

theorem renames_get : Renames Store.Renamed (get : Build Store) get :=
  fun _ _ hs => .ok ⟨hs, hs⟩

theorem renames_set {s s' : Store} (h : s.Renamed s') :
    Renames (fun _ _ => True) (set s : Build Unit) (set s') :=
  fun _ _ _ => .ok ⟨trivial, h⟩

end Build

namespace Parser

variable {p p' : Parser} {ps ps' : List Parser}

theorem Renamed.lexeme (hp : p.Renamed p') : p.lexeme.Renamed p'.lexeme :=
  hp.followedBy (.refl _)

theorem Renamed.commaList (hp : p.Renamed p') : p.commaList.Renamed p'.commaList := by
  have hitems := hp.lexeme.sepBy (.refl (symbol ","))
  have hlist := (Renamed.refl skipWhitespace).andThen
    ((Renamed.refl (symbol "[")).between hitems (.refl (symbol "]")))
  exact hlist.named.named_right

theorem renamed_atLeastTwo {combine : List Parser → Parser}
    (hcombine : (combine ps).Renamed (combine ps')) (hps : List.Forall₂ Renamed ps ps') :
    SameFaultOr Renamed (atLeastTwo combine ps) (atLeastTwo combine ps') := by
  unfold atLeastTwo
  rw [hps.length_eq]
  split
  · exact .fault _
  · exact .ok hcombine

theorem Renamed.replicated (hp : p.Renamed p') (limit : Limit) (v : Value) :
    SameFaultOr Renamed (replicated p limit v) (replicated p' limit v) := by
  refine (SameFaultOr.of_eq (fun n => rfl) (v.toInt limit)).bind ?_
  rintro n _ rfl
  have hps : List.Forall₂ Renamed (List.replicate n.toNat p) (List.replicate n.toNat p') := by
    induction n.toNat with
    | zero => exact .nil
    | succ n ih => exact .cons hp ih
  exact renamed_atLeastTwo (renamed_seq hps) hps

theorem renamed_choose (keys : List Text) (hps : List.Forall₂ Renamed ps ps') (hp : p.Renamed p')
    (v : Value) : (choose keys ps p v).Renamed (choose keys ps' p' v) := by
  cases v with
  | text t =>
    show (((keys.zip ps).lookup t).getD p).Renamed (((keys.zip ps').lookup t).getD p')
    -- a key without a branch is never found, so the induction is on the branches
    induction hps generalizing keys with
    | nil =>
      rw [List.zip_nil_right]
      exact hp
    | cons hq _ ih =>
      cases keys with
      | nil => exact hp
      | cons key keys =>
        rw [List.zip_cons_cons, List.zip_cons_cons, List.lookup_cons, List.lookup_cons]
        split
        · exact hq
        · exact ih keys
  | _ => exact hp

end Parser

/-- All names are bound to parsers that differ at most in their names. -/
def Bindings.Renamed (env env' : Bindings) : Prop :=
  ∀ id, (env.lookup id).map (·.parser.nameless) = (env'.lookup id).map (·.parser.nameless)

theorem Bindings.Renamed.refl (env : Bindings) : env.Renamed env := fun _ => rfl

theorem Bindings.Renamed.cons {env env' : Bindings} (henv : env.Renamed env') (id : Text)
    (b : Binding) : Bindings.Renamed ((id, b) :: env) ((id, b) :: env') := by
  intro id'
  rw [List.lookup_cons, List.lookup_cons]
  split
  · rfl
  · exact henv id'

open Build Parselet.Parser

theorem renames_arithmetic : Renames Parser.Renamed Parser.arithmetic Parser.arithmetic := by
  refine renames_get.bind fun s s' hs => ?_
  obtain ⟨hforward, hstore⟩ := hs.allocate "expr"
  simp only [hforward]
  refine (renames_lift (hstore.define _ (.refl _))).bind fun t t' ht => ?_
  exact (renames_set ht).bind fun _ _ _ => renames_pure (.refl _)

/-- The forward is the same on both sides, since as many have been made before. -/
theorem renames_fix {limit : Limit} {env env' : Bindings} {id name : Text} {e e' : Expr}
    (he : ∀ f, Renames Parser.Renamed (e.build limit ((id, Binding.ofForward f) :: env))
      (e'.build limit ((id, Binding.ofForward f) :: env'))) :
    Renames Parser.Renamed ((Expr.fix id name e).build limit env)
      ((Expr.fix id name e').build limit env') := by
  simp only [Expr.build]
  refine renames_get.bind fun s s' hs => ?_
  obtain ⟨hforward, hstore⟩ := hs.allocate name
  simp only [hforward]
  refine (renames_set hstore).bind fun _ _ _ => (he _).bind fun p p' hp => ?_
  refine renames_get.bind fun t t' ht => ?_
  refine (renames_lift (ht.define _ hp)).bind fun u u' hu => ?_
  exact (renames_set hu).bind fun _ _ _ => renames_pure (.refl _)

theorem renames_ref {limit : Limit} {env env' : Bindings} (henv : env.Renamed env') (id : Text) :
    Renames Parser.Renamed ((Expr.ref id).build limit env) ((Expr.ref id).build limit env') := by
  have hid := henv id
  simp only [Expr.build]
  cases hlookup : env.lookup id with
  | none =>
    rw [hlookup, Option.map_none, eq_comm, Option.map_eq_none_iff] at hid
    rw [hid]
    exact renames_throw _
  | some b =>
    obtain ⟨b', hlookup', hb⟩ := Option.map_eq_some_iff.1 (hid.symm.trans (by rw [hlookup]; rfl))
    rw [hlookup']
    exact renames_pure hb.symm

mutual

theorem Expr.build_renames {limit : Limit} {env env' : Bindings} (henv : env.Renamed env')
    (e : Expr) : Renames Parser.Renamed (e.build limit env) (e.bare.build limit env') := by
  cases e with
  | pure v => exact renames_lift (.of_eq .refl _)
  | character s => exact renames_lift (.of_eq .refl _)
  | regex source flags again names => exact renames_lift (.of_eq .refl _)
  | compiled m => exact renames_pure (.refl _)
  | quotedString quote escape escapes => exact renames_lift (.of_eq .refl _)
  | fail | eof | digit | letter | alphanumeric | whitespace | integer | skipWhitespace | string
  | anycase | satisfy | sign | signedInteger | decimalNumber | unicodeEscape | identifier
  | symbol => exact renames_pure (.refl _)
  | many e => exact (e.build_renames henv).map fun _ _ hp => hp.many
  | many1 e => exact (e.build_renames henv).map fun _ _ hp => hp.many1
  | optional e => exact (e.build_renames henv).map fun _ _ hp => hp.optional
  | lookahead e => exact (e.build_renames henv).map fun _ _ hp => hp.lookahead
  | inverted e => exact (e.build_renames henv).map fun _ _ hp => hp.inverted
  | seq es =>
    exact (Expr.buildAll_renames henv es).bind fun _ _ hps =>
      renames_lift (renamed_atLeastTwo (renamed_seq hps) hps)
  | oneOf es =>
    exact (Expr.buildAll_renames henv es).bind fun _ _ hps =>
      renames_lift (renamed_atLeastTwo (renamed_oneOf hps) hps)
  | between a e b =>
    refine (a.build_renames henv).bind fun _ _ hp => (e.build_renames henv).bind fun _ _ hq => ?_
    exact (b.build_renames henv).map fun _ _ hk => hp.between hq hk
  | sepBy a b =>
    exact (a.build_renames henv).bind fun _ _ hp => (b.build_renames henv).map fun _ _ => hp.sepBy
  | sepBy1 a b =>
    exact (a.build_renames henv).bind fun _ _ hp => (b.build_renames henv).map fun _ _ => hp.sepBy1
  | map e f => exact (e.build_renames henv).map fun _ _ hp => hp.map f
  | flatMap e next =>
    refine (e.build_renames henv).bind fun _ _ hp => (next.build_renames henv).map fun _ _ h => ?_
    exact hp.flatMap fun limit v => (h limit v).map_nameless
  | named e name =>
    -- building the bare expression is followed by nothing here
    rw [← bind_pure ((e.named name).bare.build limit env')]
    exact (e.build_renames henv).map fun _ _ hp => hp.named
  | orElse a b =>
    exact (a.build_renames henv).bind fun _ _ hp => (b.build_renames henv).map fun _ _ => hp.orElse
  | andThen a b =>
    exact (a.build_renames henv).bind fun _ _ hp => (b.build_renames henv).map fun _ _ => hp.andThen
  | followedBy a b =>
    exact (a.build_renames henv).bind fun _ _ hp =>
      (b.build_renames henv).map fun _ _ => hp.followedBy
  | arithmetic => exact renames_arithmetic
  | lexeme e => exact (e.build_renames henv).map fun _ _ hp => hp.lexeme
  | commaList e => exact (e.build_renames henv).map fun _ _ hp => hp.commaList
  | custom f name => exact renames_pure (renamed_mk rfl)
  | ref id => exact renames_ref henv id
  | fix id name e => exact renames_fix fun f => e.build_renames (henv.cons id _)

theorem Expr.buildAll_renames {limit : Limit} {env env' : Bindings} (henv : env.Renamed env')
    (es : List Expr) : Renames (List.Forall₂ Parser.Renamed) (Expr.buildAll limit env es)
      (Expr.buildAll limit env' (Expr.bareAll es)) := by
  cases es with
  | nil => exact renames_pure .nil
  | cons e es =>
    exact (e.build_renames henv).bind fun _ _ hp =>
      (Expr.buildAll_renames henv es).map fun _ _ hps => .cons hp hps

theorem Continuation.build_renames {limit : Limit} {env env' : Bindings} (henv : env.Renamed env')
    (next : Continuation) :
    Renames (fun next next' => ∀ limit v,
        SameFaultOr Parser.Renamed (next limit v) (next' limit v))
      (next.build limit env) (next.bare.build limit env') := by
  cases next with
  | pure | fail | character | string | anycase | repeated =>
    exact renames_pure fun _ _ => .of_eq .refl _
  | const e => exact (e.build_renames henv).map fun _ _ hp _ _ => .ok hp
  | count e => exact (e.build_renames henv).map fun _ _ hp => hp.replicated
  | cases keys branches other =>
    refine (Expr.buildAll_renames henv branches).bind fun _ _ hps => ?_
    exact (other.build_renames henv).map fun _ _ hp _ v => .ok (renamed_choose keys hps hp v)

end

/-- Names never influence parsing. Expressions that differ in names only, where names are bound to
parsers that do, are refused for the same fault, or they give parsers that end equally on every text
and whose logs agree line by line but for the names. In particular a named copy makes no call of its
own. -/
theorem names_never_matter {env env' : Bindings} {store store' : Store} {e e' : Expr}
    (he : e.bare = e'.bare) (henv : env.Renamed env') (hstore : store.Renamed store')
    (limit : Limit) :
    SameFaultOr (fun built built' => ∀ (s : Settings) (src : Text),
        (built.1.parse built.2 s src).SameButNames (built'.1.parse built'.2 s src))
        ((e.build limit env).run store) ((e'.build limit env').run store') ∧
      ∀ (p : Parser) (name : Text) (s : Settings) (src : Text),
        ((p.named name).parse store s src).log.length = (p.parse store s src).log.length := by
  constructor
  · -- both expressions are compared with the bare one
    have h : SameFaultOr _ ((e.build limit env).run store) ((e.bare.build limit env').run store') :=
      e.build_renames henv hstore
    have h' : SameFaultOr _ ((e'.build limit env').run store')
        ((e'.bare.build limit env').run store') :=
      e'.build_renames (.refl env') (.refl store')
    rw [he] at h
    refine h.join h' fun built built' bare hbuilt hbuilt' s src => ?_
    have hparser : built.1.Renamed built'.1 := hbuilt.1.trans hbuilt'.1.symm
    have hstores : built.2.Renamed built'.2 := hbuilt.2.trans hbuilt'.2.symm
    exact hparser.runTo hstores s s.depth src
  · intro p name s src
    have hsame : ((p.named name).parse store s src).SameButNames (p.parse store s src) :=
      (Renamed.refl p).named.runTo (.refl store) s s.depth src
    simpa only [List.length_map] using congrArg List.length hsame.2

/-- Nested parentheses around a custom parser, with named copies in one of the two expressions and
another name of the custom parser in the other. -/
theorem names_never_matter_nested :
    let inner : Expr := .fix "p" "p" (.orElse
      (.between (.character "(") (.named (.ref "p") "again") (.character ")"))
      (.custom Sample.take2 "two"))
    let inner' : Expr := .fix "p" "p" (.orElse
      (.between (.character "(") (.ref "p") (.character ")")) (.custom Sample.take2 "some"))
    ∃ p t p' t', ((Expr.named inner "all").build none []).run Store.empty = .ok (p, t) ∧
      (inner'.build none []).run Store.empty = .ok (p', t') ∧
        ∀ s src, (p.parse t s src).SameButNames (p'.parse t' s src) := by
  intro inner inner'
  have hbare : (Expr.named inner "all").bare = inner'.bare := rfl
  have h := (names_never_matter hbare (Bindings.Renamed.refl []) (.refl Store.empty) none).1
  have hbuild : ((Expr.named inner "all").build none []).run Store.empty = .ok (_, _) := rfl
  have hbuild' : (inner'.build none []).run Store.empty = .ok (_, _) := rfl
  rw [hbuild, hbuild'] at h
  cases h with
  | ok hruns => exact ⟨_, _, _, _, hbuild, hbuild', hruns⟩

end Parselet
