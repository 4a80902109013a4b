import Parselet.Grammar.Expr
import Parselet.Proofs.Arithmetic.Chain
import Parselet.Proofs.Parser.Built

/-!
The parsers of the library are built from their arguments, and so are the parsers that the
continuations of the library give for the values they are started with.
-/

namespace Parselet.Parser

variable {base : Parser → Prop} {known : Forward → Prop} {p q k : Parser} {limit : Limit}
  {v : Value}

/-! ## Combinators -/

theorem MadeFrom.followedBy (hp : MadeFrom base known p) (hq : MadeFrom base known q) :
    MadeFrom base known (p.followedBy q) := by
  refine .named _ (.flatMap _ hp fun _ v k hk => ?_)
  cases hk
  exact .map _ _ hq

theorem MadeFrom.andThen (hp : MadeFrom base known p) (hq : MadeFrom base known q) :
    MadeFrom base known (p.andThen q) := by
  refine .named _ (.flatMap _ hp fun _ v k hk => ?_)
  cases hk
  exact hq

theorem MadeFrom.between (hp : MadeFrom base known p) (hq : MadeFrom base known q)
    (hk : MadeFrom base known k) : MadeFrom base known (between p q k) :=
  .named _ ((hp.andThen hq).followedBy hk)

theorem MadeFrom.many1 (hp : MadeFrom base known p) : MadeFrom base known p.many1 :=
  .nonempty _ (.many _ hp)

theorem MadeFrom.sepBy1 (hp : MadeFrom base known p) (hq : MadeFrom base known q) :
    MadeFrom base known (p.sepBy1 q) :=
  .nonempty _ (.sepBy _ hp hq)

theorem madeFrom_of_pure (h : Parser.pure limit v = .ok k) : MadeFrom base known k := by
  obtain ⟨name, rfl⟩ := exists_eq_of_pure h
  exact .pure name v

theorem madeFrom_of_character {s : Text} (h : character? s = .ok k) : MadeFrom base known k := by
  unfold character? at h
  split at h
  · cases h
    exact .character _ _
  · cases h

theorem madeFrom_of_atLeastTwo {combine : List Parser → Parser} {ps : List Parser}
    (h : atLeastTwo combine ps = .ok k) (hps : MadeFrom base known (combine ps)) :
    MadeFrom base known k := by
  unfold atLeastTwo at h
  split at h
  · cases h
  · cases h
    exact hps

/-! ## Tokens -/

theorem madeFrom_skipWhitespace : MadeFrom base known skipWhitespace :=
  .named _ (.map _ _ (.many _ (.satisfy _ _ _)))

theorem MadeFrom.lexeme (hp : MadeFrom base known p) : MadeFrom base known (lexeme p) :=
  hp.followedBy madeFrom_skipWhitespace

theorem madeFrom_symbol (s : Text) : MadeFrom base known (symbol s) := MadeFrom.lexeme (.string _ s)

theorem MadeFrom.commaList (hp : MadeFrom base known p) : MadeFrom base known (commaList p) :=
  .named _ (madeFrom_skipWhitespace.andThen
    ((madeFrom_symbol _).between (.sepBy _ hp.lexeme (madeFrom_symbol _)) (madeFrom_symbol _)))

theorem madeFrom_integer : MadeFrom base known integer := by
  refine .named _ (.flatMap _ (MadeFrom.many1 (.satisfy _ _ _)) fun limit v k hk => ?_)
  obtain ⟨n, hk⟩ | ⟨m, rfl⟩ := integerOf_eq_ok hk
  · exact madeFrom_of_pure hk
  · exact .fail _ _

theorem MadeFrom.pair (hp : MadeFrom base known p) (hq : MadeFrom base known q) :
    ∀ r ∈ [p, q], MadeFrom base known r :=
  List.forall_mem_cons.2 ⟨hp, List.forall_mem_singleton.2 hq⟩

theorem MadeFrom.triple (hp : MadeFrom base known p) (hq : MadeFrom base known q)
    (hk : MadeFrom base known k) : ∀ r ∈ [p, q, k], MadeFrom base known r :=
  List.forall_mem_cons.2 ⟨hp, hq.pair hk⟩

theorem madeFrom_sign : MadeFrom base known sign := .satisfy _ _ _

theorem madeFrom_signedInteger : MadeFrom base known signedInteger :=
  .named _ (.map _ _ (.seq _ (.pair (.optional _ madeFrom_sign) madeFrom_integer)))

theorem madeFrom_digits : MadeFrom base known digits := .map _ _ (MadeFrom.many1 (.satisfy _ _ _))

theorem madeFrom_fraction : MadeFrom base known fraction :=
  .map _ _ (.seq _ (.pair (.character _ _) madeFrom_digits))

theorem madeFrom_mantissa : MadeFrom base known mantissa :=
  .orElse _ (.map _ _ (.seq _ (.pair madeFrom_digits (.optional _ madeFrom_fraction))))
    madeFrom_fraction

theorem madeFrom_exponent : MadeFrom base known exponent :=
  .map _ _ (.seq _ (.triple (.anycase _ _) (.optional _ madeFrom_sign) madeFrom_digits))

theorem madeFrom_decimalNumber : MadeFrom base known decimalNumber :=
  .named _ (.map _ _ (.seq _
    (.triple (.optional _ madeFrom_sign) madeFrom_mantissa (.optional _ madeFrom_exponent))))

theorem madeFrom_identifier : MadeFrom base known identifier :=
  .named _ (.map _ _ (.seq _ (.pair (.orElse _ (.satisfy _ _ _) (.character _ _))
    (.many _ (.orElse _ (.satisfy _ _ _) (.character _ _))))))

theorem madeFrom_unicodeEscape : MadeFrom base known unicodeEscape := by
  have hdigit : MadeFrom base known hexDigit := .satisfy _ _ _
  have hdigits : MadeFrom base known (seq [hexDigit, hexDigit, hexDigit, hexDigit]) :=
    .seq _ (List.forall_mem_cons.2 ⟨hdigit, .triple hdigit hdigit hdigit⟩)
  exact .named _ (.map _ _ (MadeFrom.andThen (.character _ _) hdigits))

theorem madeFrom_quotedString (quote escape : CodePoint) (escapes : Escapes) :
    MadeFrom base known (quotedString quote escape escapes) := by
  have hescaped : MadeFrom base known (escaped escape escapes) :=
    MadeFrom.andThen (.character _ _) (.oneOf _
      (.triple (.map _ _ (.satisfy _ _ _)) madeFrom_unicodeEscape (.satisfy _ _ _)))
  have hpieces :
      MadeFrom base known (many ((escaped escape escapes).orElse (unescaped quote escape))) :=
    .many _ (.orElse _ hescaped (.satisfy _ _ _))
  exact .named _ (MadeFrom.between (.character _ _) (.map _ _ hpieces) (.character _ _))

/-! Arithmetic. -/

theorem MadeFrom.chain (hp : MadeFrom base known p) (hq : MadeFrom base known q) :
    MadeFrom base known (chain p q) := by
  refine .flatMap _ (.seq _ (.pair hp (.many _ (.seq _ (.pair hq hp))))) fun limit v k hk => ?_
  obtain ⟨_, _, -, ⟨i, -, hpure⟩ | ⟨-, rfl⟩⟩ := Arithmetic.evaluate_eq_ok hk
  · exact madeFrom_of_pure hpure
  · exact .fail _ _

theorem madeFrom_operatorSymbol (s : Text) (o : Operator) :
    MadeFrom base known (operatorSymbol s o) :=
  .map _ _ (madeFrom_symbol s)

theorem MadeFrom.sum (hp : MadeFrom base known p) : MadeFrom base known (Parser.sum p) := by
  have hfactor : MadeFrom base known (factor p) :=
    .orElse _ madeFrom_integer.lexeme ((madeFrom_symbol _).between hp (madeFrom_symbol _))
  have hterm : MadeFrom base known (term p) :=
    hfactor.chain (.oneOf _ (.pair (madeFrom_operatorSymbol _ _) (madeFrom_operatorSymbol _ _)))
  exact hterm.chain (.oneOf _ (.pair (madeFrom_operatorSymbol _ _) (madeFrom_operatorSymbol _ _)))

/-! ## Continuations -/

theorem failure_within (m src : Text) : Result.Within src (.failure m (some src)) :=
  ⟨src, rfl, List.suffix_refl src⟩

theorem neverFound_within {src : Text} {r : Result} (h : neverFound limit v src = .ok r) :
    r.Within src := by
  obtain ⟨t, -, h⟩ := except_bind_eq_ok_iff.1 h
  split at h
  · cases h
    exact failure_within _ _
  · cases h
    exact failure_within _ _

theorem anyOf_within {parts : List Value} {src : Text} {r : Result}
    (h : anyOf limit parts src = .ok r) : r.Within src := by
  obtain ⟨found, -, h⟩ := except_bind_eq_ok_iff.1 h
  split at h
  · cases h
    exact List.drop_suffix parts.length src
  · obtain ⟨t, -, h⟩ := except_bind_eq_ok_iff.1 h
    split at h
    · cases h
      exact failure_within _ _
    · cases h
      exact failure_within _ _

theorem madeFrom_of_failWith (h : failWith limit v = .ok k) : MadeFrom base known k := by
  obtain ⟨t, -, h⟩ := except_bind_eq_ok_iff.1 h
  cases h
  exact .fail _ _

theorem madeFrom_of_characterOfValue (h : characterOfValue limit v = .ok k) :
    MadeFrom base known k := by
  obtain ⟨n, -, h⟩ := except_bind_eq_ok_iff.1 h
  -- any other size than one is refused
  by_cases hn : n = 1
  · simp only [hn, ne_eq, not_true, if_false] at h
    split at h
    · exact madeFrom_of_character h
    · obtain ⟨t, -, h⟩ := except_bind_eq_ok_iff.1 h
      cases h
      exact .custom _ fun src r hr => neverFound_within hr
  · simp only [hn, ne_eq, not_false_eq_true, if_true] at h
    split at h
    · cases h
    · cases h

theorem madeFrom_of_stringOfValue (h : stringOfValue limit v = .ok k) : MadeFrom base known k := by
  unfold stringOfValue at h
  split at h
  · cases h
    exact .string _ _
  · obtain ⟨t, -, h⟩ := except_bind_eq_ok_iff.1 h
    cases h
    exact .custom _ fun src r hr => anyOf_within hr
  · obtain ⟨t, -, h⟩ := except_bind_eq_ok_iff.1 h
    cases h
    exact .custom _ fun src r hr => by cases hr

theorem madeFrom_of_anycaseOfValue (h : anycaseOfValue v = .ok k) : MadeFrom base known k := by
  unfold anycaseOfValue at h
  split at h
  · cases h
    exact .anycase _ _
  · cases h

theorem madeFrom_of_repeatedString {t : Text} (h : repeatedString t limit v = .ok k) :
    MadeFrom base known k := by
  obtain ⟨n, -, h⟩ := except_bind_eq_ok_iff.1 h
  cases h
  exact .string _ _

theorem MadeFrom.replicated (hp : MadeFrom base known p) (h : replicated p limit v = .ok k) :
    MadeFrom base known k := by
  obtain ⟨n, -, h⟩ := except_bind_eq_ok_iff.1 h
  refine madeFrom_of_atLeastTwo h (.seq _ fun q hq => ?_)
  rw [List.eq_of_mem_replicate hq]
  exact hp

theorem MadeFrom.choose {keys : List Text} {branches : List Parser}
    (hbranches : ∀ q ∈ branches, MadeFrom base known q) (hp : MadeFrom base known p) (v : Value) :
    MadeFrom base known (choose keys branches p v) := by
  unfold Parser.choose
  split
  · next t =>
    cases hlookup : (keys.zip branches).lookup t with
    | none => exact hp
    | some q =>
      obtain ⟨before, after, hzip, -⟩ := List.lookup_eq_some_iff.1 hlookup
      have hmem : (t, q) ∈ keys.zip branches := by simp [hzip]
      exact hbranches q (List.of_mem_zip hmem).2
  · exact hp

end Parselet.Parser
