import ScriptSetup.Proofs.Result
import ScriptSetup.Proofs.Setup.ResolvedTables

/-!
# Names that local declarations take over

`this.n` and `this.$refs.n` are written as the name `n`, which stands for the binding of the
component as long as nothing around it declares an `n` of its own. Writing never looks at what is
declared around an access, so the name is taken over by a local declaration exactly when the
access stood in the scope of one. The names that a body declares which runs during set-up are
declarations beside all other code, and the signature of an event has a parameter `e`.
-/

set_option autoImplicit false

namespace ScriptSetup.Setup

open Script Component Written

/-! ## Resolving keeps the scopes of members -/

theorem itemUses_resolve (s : Scope) (locals : List String) (events : List Event)
    (item : BodyItem) :
    itemUses (events.map (resolveEvent s.reactive)) locals (resolveItem s.reactive item) =
      (itemUses events locals item).map Use.resolve := by
  cases item with
  | field name isReadonly type value => exact (@option_settles s 0 _ value).uses
  | method name f | lifecycle hook f => exact (@func_settles s " " 0 _ f).uses
  | hoisted body => exact (@block_settles s 0 _ body).uses
  | emit index =>
    rw [resolveItem, itemUses, itemUses, List.getElem?_map]
    cases events[index]? with
    | none => rfl
    | some e => exact (emitMethod_settles s locals e).uses
  | _ => rfl

theorem setupNames_resolve (state : List String) (item : BodyItem) :
    setupNames (resolveItem state item) = setupNames item := by
  cases item with
  | hoisted body => exact bodyNames_resolve state body
  | _ => rfl

/-- Resolving turns each reference of the members into the name that it means, in the scope of the
same local names. -/
theorem memberUses_resolve (s : Scope) (t : Tables) :
    memberUses (resolveTables s.reactive t) = (memberUses t).map Use.resolve := by
  have hlocals : (t.body.map (resolveItem s.reactive)).flatMap setupNames =
      t.body.flatMap setupNames := by
    rw [List.flatMap_map]
    exact congrArg t.body.flatMap (funext (setupNames_resolve s.reactive))
  have hitems (locals : List String) :
      (t.body.map (resolveItem s.reactive)).flatMap
          (itemUses (t.events.map (resolveEvent s.reactive)) locals) =
        (t.body.flatMap (itemUses t.events locals)).map Use.resolve := by
    rw [List.flatMap_map, List.map_flatMap]
    exact congrArg t.body.flatMap (funext (itemUses_resolve s locals t.events))
  simp only [memberUses, resolveTables, hlocals, hitems, List.map_append,
    (inputDeclarations_settles s _ t.inputs).uses, (eventDeclarations_settles s _ t.events).uses,
    (all_settles (watchRegistration_settles s _) t.watchers).uses,
    (all_settles (computedBinding_settles s _) t.accessors).uses,
    (all_settles (refBinding_settles s _) t.refs).uses]

/-! ## When a name is taken over -/

/-- The tables of a logic block. -/
def scriptTables (source : String) (lang : Lang) (o : Options) : Except ScriptError Tables := do
  let items ← (parseModule lang source).mapError .notModule
  (Tables.ofModule source.toList o.denied items).mapError .decorator

theorem convertScript_eq_ok {source : String} {lang : Lang} {o : Options} {c : Converted} :
    convertScript source lang o = .ok c ↔
      ∃ t, scriptTables source lang o = .ok t ∧
        convertTables source.toList o.framework t = c := by
  constructor
  · intro h
    obtain ⟨items, hitems, h⟩ := bind_eq_ok.1 h
    obtain ⟨t, htables, h⟩ := bind_eq_ok.1 h
    exact ⟨t, bind_eq_ok.2 ⟨items, hitems, htables⟩, Except.ok.inj h⟩
  · rintro ⟨t, h, rfl⟩
    obtain ⟨items, hitems, htables⟩ := bind_eq_ok.1 h
    exact bind_eq_ok.2 ⟨items, hitems, bind_eq_ok.2 ⟨t, htables, rfl⟩⟩

/-- A logic block is converted when it is a module whose decorators mean something. -/
theorem convertScript_eq_ok_iff {source : String} {lang : Lang} {o : Options} {c : Converted} :
    convertScript source lang o = .ok c ↔
      ∃ items t, parseModule lang source = .ok items ∧
        Tables.ofModule source.toList o.denied items = .ok t ∧
        convertTables source.toList o.framework t = c := by
  constructor
  · intro h
    obtain ⟨t, htables, hc⟩ := convertScript_eq_ok.1 h
    obtain ⟨items, hitems, htables⟩ := bind_eq_ok.1 htables
    exact ⟨items, t, mapError_eq_ok.1 hitems, mapError_eq_ok.1 htables, hc⟩
  · rintro ⟨items, t, hitems, ht, hc⟩
    refine convertScript_eq_ok.2 ⟨t, ?_, hc⟩
    exact bind_eq_ok.2 ⟨items, mapError_eq_ok.2 hitems, mapError_eq_ok.2 ht⟩

/-- A test that the tables of a component pass shows that there are such tables. The test is of the
characters of the source, which are slow to evaluate from a text. -/
theorem exists_tables (source : String) (lang : Lang) {cs : List Char} (hcs : source.toList = cs)
    (p : List Char → List ModuleItem → Tables → Prop) [∀ items t, Decidable (p cs items t)]
    (h : (parseChars lang cs).toOption.any (fun items =>
      (Tables.ofModule cs ({} : Options).denied items).toOption.any fun t => p cs items t) = true) :
    ∃ items t, parseModule lang source = .ok items ∧
      Tables.ofModule source.toList ({} : Options).denied items = .ok t ∧
      scriptTables source lang {} = .ok t ∧ p source.toList items t := by
  subst hcs
  obtain ⟨items, hitems, h⟩ := exists_ok_of_any (x := parseModule lang source) h
  obtain ⟨t, ht, h⟩ := exists_ok_of_any h
  exact ⟨items, t, hitems, ht, bind_eq_ok.2 ⟨items, mapError_eq_ok.2 hitems, mapError_eq_ok.2 ht⟩,
    of_decide_eq_true h⟩

/-- A use of a binding of the component: `this.n` or `this.$refs.n`. -/
def Use.isAccess (u : Use) : Bool :=
  match u.reference with
  | .self _ _ _ | .templateRef _ => true
  | .name _ => false

/-- A local declaration has the name that is meant. -/
def Use.isTaken (u : Use) : Bool :=
  u.locals.contains u.reference.target

/-- No name that is printed for an access of the code belongs to a local declaration. -/
def CaptureFree (code printed : List Use) : Prop :=
  ∀ pair ∈ code.zip printed, pair.1.isAccess = true → pair.2.isTaken = false

instance (code printed : List Use) : Decidable (CaptureFree code printed) :=
  inferInstanceAs (Decidable (∀ pair ∈ code.zip printed, _))

theorem captureFree_map_resolve (uses : List Use) :
    CaptureFree uses (uses.map Use.resolve) ↔
      ∀ u ∈ uses, u.isAccess = true → u.isTaken = false := by
  have hzip : uses.zip (uses.map Use.resolve) = uses.map fun u => (u, u.resolve) := by
    induction uses with
    | nil => rfl
    | cons u uses ih => rw [List.map_cons, List.zip_cons_cons, ih, List.map_cons]
  constructor
  · intro h u hu
    exact h (u, u.resolve) (hzip ▸ List.mem_map_of_mem hu)
  · intro h pair hpair
    obtain ⟨u, hu, rfl⟩ := List.mem_map.1 (hzip ▸ hpair)
    exact h u hu

/-- What is written is the resolved form of the tables. There each access is the name that it
means, in the scope of the same local names, so it means the binding of the component exactly when
no access stands in the scope of a local declaration of its name. -/
theorem convertScript_captureFree_iff {source : String} {lang : Lang} {o : Options}
    {c : Converted} (h : convertScript source lang o = .ok c) :
    ∃ t, scriptTables source lang o = .ok t ∧
      let s := Scope.ofTables source.toList t
      let printed := resolveTables s.reactive t
      c.code = (document o.framework t (writeParts s t)).render ∧
      (writeParts s t).value = (writeParts s printed).value ∧
      memberUses printed = (memberUses t).map Use.resolve ∧
      (CaptureFree (memberUses t) (memberUses printed) ↔
        ∀ u ∈ memberUses t, u.isAccess = true → u.isTaken = false) := by
  obtain ⟨t, htables, rfl⟩ := convertScript_eq_ok.1 h
  have huses := memberUses_resolve (Scope.ofTables source.toList t) t
  refine ⟨t, htables, rfl, ?_, huses, ?_⟩
  · rw [(writeParts_settles _ t).settled]
    rfl
  · rw [huses]
    exact captureFree_map_resolve (memberUses t)

/-- A component whose accesses stand among local declarations of other names. -/
def otherNamesSource : String :=
  "@Component export default class A \x7b @Ref a = 0; m(x) \x7b for (const y of this.a) try " ++
    "\x7b this.m(y) \x7d catch (e) \x7b this.$refs.z.f(x, e) \x7d \x7d \x7d"

theorem captureFree_among_other_names :
    ∃ t, scriptTables otherNamesSource .javaScript {} = .ok t ∧
      CaptureFree (memberUses t)
        (memberUses (resolveTables (Scope.ofTables otherNamesSource.toList t).reactive t)) := by
  obtain ⟨-, t, -, -, ht, hfree⟩ := exists_tables otherNamesSource .javaScript
    (toList_append_ofList String.toList_ofList)
    (fun _ _ t => ∀ u ∈ memberUses t, u.isAccess = true → u.isTaken = false) (by decide +kernel)
  obtain ⟨t', ht', -, -, -, hiff⟩ :=
    convertScript_captureFree_iff (convertScript_eq_ok.2 ⟨t, ht, rfl⟩)
  cases ht.symm.trans ht'
  exact ⟨t, ht, hiff.2 hfree⟩

/-- A component with a parameter that has the name of its state. -/
def sameNameSource : String :=
  "@Component export default class A \x7b @Ref count = 0; " ++
    "set(count) \x7b this.count = count; \x7d \x7d"

/-- The parameter takes the place of the state that was assigned to, and nothing is reported. -/
theorem parameter_captures_state :
    convertScript sameNameSource .javaScript {} = .ok
      ⟨"import \x7b ref \x7d from 'vue';\n\nconst count = ref(0);\n\n" ++
        "function set(count) \x7b\n  count.value = count;\n\x7d", []⟩ ∧
    ∃ t, scriptTables sameNameSource .javaScript {} = .ok t ∧
      ¬ CaptureFree (memberUses t)
        (memberUses (resolveTables (Scope.ofTables sameNameSource.toList t).reactive t)) := by
  obtain ⟨-, t, -, -, ht, hconverted, hcaptured⟩ := exists_tables sameNameSource .javaScript
    (toList_append_ofList String.toList_ofList)
    (fun cs _ t => convertTables cs "vue" t =
        ⟨"import \x7b ref \x7d from 'vue';\n\nconst count = ref(0);\n\n" ++
          "function set(count) \x7b\n  count.value = count;\n\x7d", []⟩ ∧
      ¬ CaptureFree (memberUses t)
        (memberUses (resolveTables (Scope.ofTables cs t).reactive t)))
    (by decide +kernel)
  exact ⟨convertScript_eq_ok.2 ⟨t, ht, hconverted⟩, t, ht, hcaptured⟩

end ScriptSetup.Setup
