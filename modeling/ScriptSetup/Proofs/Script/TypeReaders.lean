import ScriptSetup.Proofs.Script.Readers

/-!
# Reading templates, types and patterns

A template is read with one more chunk than holes. An expression that is read as a pattern gives a
pattern of well-formed parts.
-/

set_option autoImplicit false

namespace ScriptSetup.Script

namespace Parse

/-! ## Templates -/

instance (lenient : Bool) : Reads (templateChunk lenient) := by unfold templateChunk; exact .steps

section

variable {α : Type} [Trees α] (lenient : Bool) (hole : Parse α) [hhole : Reads hole]

/-- A chunk stands before the first hole and after each. -/
theorem templateParts_yields :
    Yields (templateParts lenient hole) fun x => x.1.length = x.2.length + 1 ∧ wellFormed x.2 := by
  have hchunk := (inferInstance : Reads (templateChunk lenient)).out
  -- each round of the loop reads a hole and the chunk after it
  let I : List String × List α × Bool → Prop := fun x =>
    x.1.length = x.2.1.length + 1 ∧ wellFormed x.2.1
  refine hchunk.bind fun first _ => (Yields.iterate ?_ ?_).bind fun x (hx : I x) => ?_
  · rintro ⟨chunks, holes, more⟩ ⟨hlength, hholes⟩
    cases more with
    | false => exact .pure nofun
    | true =>
      refine hhole.inBrackets.out.bind fun a ha => ?_
      have hround : Yields (templateChunk lenient >>= fun x =>
          pure (some (x.1 :: chunks, a :: holes, x.2))) fun y? => ∀ y, y? = some y → I y := by
        refine hchunk.bind fun x _ => .pure fun y hy => ?_
        obtain rfl := Option.some.inj hy
        exact ⟨congrArg (· + 1) hlength, List.forall_mem_cons.2 ⟨ha, hholes⟩⟩
      refine (inferInstance : Reads (isPunct "\x7d")).out.bind fun b _ => .ite hround ?_
      exact (inferInstance : Reads (unexpected "\x7d")).out.bind fun _ _ => hround
  · exact ⟨rfl, fun _ => nofun⟩
  · refine .pure ⟨?_, fun a ha => hx.2 a (List.mem_reverse.1 ha)⟩
    simpa using hx.1

instance : Reads (templateParts lenient hole) :=
  ⟨(templateParts_yields lenient hole).mono fun _ h => ⟨fun _ _ => trivial, h.2⟩⟩

end

/-! ## Types -/

instance {α : Type} [Trees α] (item : Parse α) [Reads item] : Reads (angleList item) := by
  unfold angleList
  exact .steps

instance (start : Nat) (names : List Ident) : Reads (typeFrom start names) := by
  unfold typeFrom
  exact .steps

section

variable (g : Grammar) [g.Sound]

instance : Reads (typeArgs g) := by unfold typeArgs; exact .steps
instance : Reads (typeParam g) := by unfold typeParam; exact .steps
instance : Reads (typeParams g) := by unfold typeParams; exact .steps
instance : Reads (typeParams? g) := by unfold typeParams?; exact .steps
instance : Reads (typeAnn? g) := by unfold typeAnn?; exact .steps
instance (mark : String) : Reads (returnTypeAfter g mark) := by unfold returnTypeAfter; exact .steps
instance : Reads (returnType? g) := by unfold returnType?; exact .steps
instance : Reads eatParamModifier := by unfold eatParamModifier; exact .steps
instance : Reads (signatureParam g) := by unfold signatureParam; exact .steps
instance : Reads (signatureParams g) := by unfold signatureParams; exact .steps
instance : Reads (signature g) := by unfold signature; exact .steps
instance : Reads (typeMemberKey g) := by unfold typeMemberKey; exact .steps
instance (word : String) : Reads (eatMemberModifier word) := by
  unfold eatMemberModifier
  exact .steps

instance : Reads isIndexSignature := by unfold isIndexSignature; exact .steps
instance : Reads (indexSignature g) := by unfold indexSignature; exact .steps
instance : Reads typeMemberEnd := by unfold typeMemberEnd; exact .steps
instance (isReadonly : Bool) : Reads (namedTypeMember g isReadonly) := by
  unfold namedTypeMember
  exact .steps

instance : Reads (unendedTypeMember g) := by unfold unendedTypeMember; exact .steps
instance : Reads (typeMember g) := by unfold typeMember; exact .steps
instance : Reads (typeMembers g) := by unfold typeMembers; exact .steps
instance : Reads eatSign := by unfold eatSign; exact .steps
instance : Reads isMappedType := by unfold isMappedType; exact .steps
instance : Reads (mappedType g) := by unfold mappedType; exact .steps
instance : Reads tupleLabel := by unfold tupleLabel; exact .steps
instance : Reads (tupleElement g) := by unfold tupleElement; exact .steps
instance : Reads (tupleType g) := by unfold tupleType; exact .steps
instance : Reads dottedName := by unfold dottedName; exact .steps
instance : Reads (typeArgsOnLine g) := by unfold typeArgsOnLine; exact .steps
instance : Reads (importType g) := by unfold importType; exact .steps
instance : Reads (primaryType g) := by unfold primaryType; exact .steps
instance : Reads (arrayType g) := by unfold arrayType; exact .steps
instance : Reads (inferType g) := by unfold inferType; exact .steps
instance : Reads (operatorType g) := by unfold operatorType; exact .steps
instance (op : String) (item : Parse TypeText) [Reads item] : Reads (joinedTypes op item) := by
  unfold joinedTypes
  exact .steps

instance (start : Nat) (ts : List TypeText) : Reads (joinedText start ts) := by
  unfold joinedText
  exact .steps

instance (op : String) (item : Parse TypeText) [Reads item] : Reads (typesJoinedBy op item) := by
  unfold typesJoinedBy
  exact .steps

instance : Reads (isFunctionType g) := by unfold isFunctionType; exact .steps
instance (start : Nat) : Reads (functionType g start) := by unfold functionType; exact .steps
instance : Reads (typeAlternatives g) := by unfold typeAlternatives; exact .steps
instance : Reads (plainType g) := by unfold plainType; exact .steps
instance : Reads (anyType g) := by unfold anyType; exact .steps

/-! ## Binding patterns -/

instance : Reads (propertyKey g) := by unfold propertyKey; exact .steps
instance : Reads (bindingElement g) := by unfold bindingElement; exact .steps
instance : Reads (arrayBindingElement g) := by unfold arrayBindingElement; exact .steps
instance : Reads (objectBindingProperty g) := by unfold objectBindingProperty; exact .steps
instance : Reads (bindingPattern g) := by unfold bindingPattern; exact .steps

/-- What binds names is a name or a pattern. -/
theorem bindingPattern_binds : Yields (bindingPattern g) fun p => p.isBinding = true := by
  refine Reads.then_yields fun start => Reads.then_yields fun t => ?_
  split
  · refine Reads.then_yields fun _ => Reads.then_yields fun elems => ?_
    exact Reads.then_yields fun _ => Reads.then_yields fun span => .pure rfl
  · refine Reads.then_yields fun _ => Reads.then_yields fun x => Reads.then_yields fun span => ?_
    exact .ite (Reads.then_yields fun _ => .pure rfl) (.pure rfl)
  · exact Reads.then_yields fun id => .pure rfl

end

instance (binds : Bool) : Reads (patternMode binds) := by unfold patternMode; exact .steps

end Parse

/-! ## Expressions as patterns -/

mutual

/-- A well-formed expression is a well-formed pattern, also where it is assigned to. -/
theorem Expr.toPattern?_wellFormed (m : PatternMode) (e : Expr) {p : Pat}
    (he : AllWellFormed (exprNodes e)) (h : e.toPattern? m = some p) :
    wellFormed p ∧ p.Sound := by
  rw [Expr.toPattern?.eq_def] at h
  split at h
  · split at h
    · cases h
    · cases h
      exact ⟨allWellFormed_nil, he _ List.mem_cons_self⟩
  · next span es =>
    split at h
    · cases h
    · obtain ⟨ps, hps, rfl⟩ := Option.map_eq_some_iff.1 h
      have hes := (allWellFormed_cons.1 he).2
      refine ⟨?_, trivial⟩
      simpa [wellFormed, patNodes] using elementPatterns?_wellFormed m es hes hps
  · next span props =>
    split at h
    · cases h
    · obtain ⟨ps, hps, rfl⟩ := Option.map_eq_some_iff.1 h
      have hprops := (allWellFormed_cons.1 he).2
      refine ⟨?_, trivial⟩
      simpa [wellFormed, patNodes] using propertyPatterns?_wellFormed m props hprops hps
  · next span target value =>
    have hparts : AllWellFormed (patNodes target ++ exprNodes value) := (allWellFormed_cons.1 he).2
    split at h
    · cases h
    · cases h
      exact ⟨hparts, trivial⟩
  · split at h
    · cases h
      exact ⟨he, he _ (Expr.mem_exprNodes _)⟩
    · cases h
termination_by sizeOf e
decreasing_by
  all_goals subst_vars; simp only [Expr.array.sizeOf_spec, Expr.object.sizeOf_spec]; omega

theorem elementPatterns?_wellFormed (m : PatternMode) (es : List Expr) {ps : List Pat}
    (hes : AllWellFormed (exprsNodes es)) (h : elementPatterns? m es = some ps) :
    AllWellFormed (patsNodes ps) := by
  rw [elementPatterns?.eq_def] at h
  split at h
  · cases h
    exact allWellFormed_nil
  · next span arg rest =>
    have harg := (allWellFormed_cons.1 (allWellFormed_append.1 hes).1).2
    split at h
    · cases h
    · obtain ⟨p, hp, rfl⟩ := Option.map_eq_some_iff.1 h
      have : WellFormed p := ⟨(arg.toPattern?_wellFormed m harg hp).1⟩
      simp [patsNodes, patNodes]
    · cases h
  · next rest =>
    obtain ⟨ps, hps, rfl⟩ := Option.map_eq_some_iff.1 h
    have hrest := elementPatterns?_wellFormed m rest (allWellFormed_append.1 hes).2 hps
    split
    · exact allWellFormed_nil
    · exact hrest
  · next e rest _ _ =>
    obtain ⟨he, hrest⟩ := allWellFormed_append.1 hes
    split at h
    · next p ps hp hps =>
      cases h
      exact allWellFormed_append.2
        ⟨(e.toPattern?_wellFormed m he hp).1, elementPatterns?_wellFormed m rest hrest hps⟩
    · cases h
termination_by sizeOf es
decreasing_by
  all_goals subst_vars; simp only [List.cons.sizeOf_spec, Expr.spread.sizeOf_spec]; omega

theorem propertyPatterns?_wellFormed (m : PatternMode) (props : List Property)
    {ps : List PatProperty} (hprops : AllWellFormed (propertiesNodes props))
    (h : propertyPatterns? m props = some ps) : AllWellFormed (patPropertiesNodes ps) := by
  rw [propertyPatterns?.eq_def] at h
  split at h
  · cases h
    exact allWellFormed_nil
  · next span arg rest =>
    have harg := (allWellFormed_append.1 hprops).1
    split at h
    · cases h
      simp [patPropertiesNodes, patPropertyNodes, patNodes]
    · next p _ hp =>
      split at h
      · cases h
      · cases h
        have : WellFormed p := ⟨(arg.toPattern?_wellFormed m harg hp).1⟩
        simp [patPropertiesNodes, patPropertyNodes]
    · cases h
  · next id rest =>
    obtain ⟨ps, hps, rfl⟩ := Option.map_eq_some_iff.1 h
    have hrest := propertyPatterns?_wellFormed m rest (allWellFormed_append.1 hprops).2 hps
    simpa [patPropertiesNodes, patPropertyNodes] using hrest
  · next key value rest =>
    obtain ⟨hp, hrest⟩ := allWellFormed_append.1 hprops
    obtain ⟨hkey, hvalue⟩ := allWellFormed_append.1 hp
    split at h
    · next p ps hp hps =>
      cases h
      exact allWellFormed_append.2
        ⟨allWellFormed_append.2 ⟨hkey, (value.toPattern?_wellFormed m hvalue hp).1⟩,
          propertyPatterns?_wellFormed m rest hrest hps⟩
    · cases h
  · next id value rest =>
    obtain ⟨hvalue, hrest⟩ := allWellFormed_append.1 hprops
    obtain ⟨ps, hps, rfl⟩ := Option.map_eq_some_iff.1 h
    exact allWellFormed_append.2 ⟨hvalue, propertyPatterns?_wellFormed m rest hrest hps⟩
  · cases h
termination_by sizeOf props
decreasing_by
  all_goals subst_vars; simp only [List.cons.sizeOf_spec, Property.spread.sizeOf_spec,
    Property.keyValue.sizeOf_spec]; omega

end

namespace Parse

section

variable (e : Expr) [he : WellFormed (Pat.expr e)]

theorem asPattern_yields (binds : Bool) :
    Yields (asPattern binds e) fun p => wellFormed p ∧ p.Sound := by
  refine Reads.then_yields fun m => ?_
  split
  · next p hp => exact .pure (e.toPattern?_wellFormed m he.out hp)
  · exact .fault

theorem assignTarget_yields (op : AssignOp) :
    Yields (assignTarget op e) fun p => wellFormed p ∧ p.Sound := by
  have hsound := he.out _ e.mem_exprNodes
  unfold assignTarget
  split
  · exact asPattern_yields _ _
  · exact asPattern_yields _ _
  · exact .ite (.pure ⟨WellFormed.out, hsound⟩) .fault
  · exact Reads.then_yields fun _ => .ite (.pure ⟨he.out, hsound⟩) .fault

instance (binds : Bool) : Reads (asPattern binds e) :=
  ⟨(asPattern_yields e binds).mono fun _ => And.left⟩

instance (op : AssignOp) : Reads (assignTarget op e) :=
  ⟨(assignTarget_yields e op).mono fun _ => And.left⟩

end

instance (e : Expr) : Reads (checkUpdateTarget e) := by unfold checkUpdateTarget; exact .steps

end Parse

end ScriptSetup.Script
