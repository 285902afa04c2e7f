import ScriptSetup.Proofs.Component.TableContents
import ScriptSetup.Proofs.Script.Nodes

/-!
# The code in the tables

The tables are filled with parts of the module and with nothing else: every expression and type in
them is one of the module.
-/

set_option autoImplicit false

namespace ScriptSetup.Component

open Script

/-! ## Nodes of entries -/

/-- The nodes of a default value. -/
def defaultNodes : Option InputDefault → List Node
  | none => []
  | some (.value e) => exprNodes e
  | some (.factory f) => funcNodes f

/-- The nodes of the type of an input. -/
def inputTypeNodes : InputType → List Node
  | .written t => [.type t]
  | .constructors _ | .unknown => []

/-- The nodes of state. -/
def refNodes (f : RefField) : List Node := typeNodes f.type ++ optionNodes f.init

/-- The nodes of an input. -/
def inputNodes (i : Input) : List Node := inputTypeNodes i.type ++ defaultNodes i.fallback

/-- The nodes of an accessor. -/
def accessorNodes (a : Accessor) : List Node :=
  a.getter.toList.flatMap funcNodes ++ a.setter.toList.flatMap funcNodes

/-- The nodes of a watcher. -/
def watcherNodes (w : Watcher) : List Node :=
  exprNodes w.target ++ optionNodes w.options ++ funcNodes w.handler

/-- The nodes of an event. -/
def eventNodes (e : Event) : List Node := funcNodes e.handler

/-- The nodes of an item of the body. -/
def bodyNodes : BodyItem → List Node
  | .stmt stmt | .exportDecl _ stmt => stmtNodes stmt
  | .field _ _ type value => typeNodes type ++ optionNodes value
  | .method _ f | .lifecycle _ f => funcNodes f
  | .hoisted body => stmtsNodes body
  | .moduleDecl _ | .emit _ | .unsupported => []

/-- The nodes of a role. -/
def roleNodes : Role → List Node
  | .ref f => refNodes f
  | .input i => inputNodes i
  | .watcher w => watcherNodes w
  | .event e => eventNodes e
  | .lifecycle _ f | .setupHook f | .getter _ f | .setter _ f | .method _ f => funcNodes f
  | .field _ _ type value => typeNodes type ++ optionNodes value
  | .nothing | .unsupported _ _ => []

/-- The nodes of the tables. -/
def Tables.nodes (t : Tables) : List Node :=
  t.refs.flatMap refNodes ++ t.inputs.flatMap inputNodes ++ t.accessors.flatMap accessorNodes
    ++ t.watchers.flatMap watcherNodes ++ t.events.flatMap eventNodes ++ t.body.flatMap bodyNodes

/-! ## Arguments of decorators -/

theorem watchArguments_nodes {args : List Expr} {target : Expr} {options : Option Expr}
    (h : watchArguments args = .ok (target, options)) :
    exprNodes target ++ optionNodes options ⊆ exprsNodes args := by
  obtain ⟨-, ⟨rfl, rfl⟩ | ⟨span, props, rest, rfl, rfl⟩⟩ := watchArguments_eq_ok.1 h
  · simp [exprsNodes, optionNodes]
  · simp only [exprsNodes, optionNodes, ← List.append_assoc]
    exact List.subset_append_left ..

theorem propertyNodes_subset {props : List Property} {p : Property} (h : p ∈ props) :
    propertyNodes p ⊆ propertiesNodes props := by
  induction h with
  | head => exact List.subset_append_left ..
  | tail p _ ih => exact List.Subset.trans ih (List.subset_append_right ..)

/-- The value of a property is a part of the object. -/
theorem valueNodes_subset {span : Span} {props : List Property} {rest : List Expr} {key : Key}
    {e : Expr} (h : .keyValue key e ∈ props) :
    exprNodes e ⊆ exprsNodes (.object span props :: rest) := by
  intro n hn
  refine List.mem_append_left _ (List.mem_cons_of_mem _ (propertyNodes_subset h ?_))
  exact List.mem_append_right _ hn

theorem inputOptions_nodes {args : List Expr} {o : InputOptions} (h : inputOptions args = .ok o) :
    defaultNodes o.fallback ⊆ exprsNodes args := by
  cases hd : o.fallback with
  | none => exact List.nil_subset _
  | some d =>
    obtain ⟨span, props, rest, rfl, hd⟩ := inputOptions_fallback h hd
    cases hd with
    | value key e hmem => exact valueNodes_subset hmem
    | factory span key f hmem =>
      intro n hn
      refine List.mem_append_left _ (List.mem_cons_of_mem _ (propertyNodes_subset hmem ?_))
      exact List.mem_append_right _ hn

theorem FirstMeaning.nodes {ds : List Decorator} {d : Decorator} {kind : DecoratorKind}
    {args : List Expr} (h : FirstMeaning ds d kind args) :
    exprsNodes args ⊆ decoratorsNodes ds := by
  obtain ⟨before, after, rfl, -, hmeans⟩ := h
  have hd : exprNodes d.expr ⊆ decoratorsNodes (before ++ d :: after) := fun n hn =>
    List.mem_flatMap.2 ⟨d, by simp, hn⟩
  refine List.Subset.trans ?_ hd
  cases hmeans with
  | name hexpr hname => exact List.nil_subset _
  | call hexpr hname =>
    rw [hexpr]
    exact List.subset_cons_of_subset _ (List.subset_append_right ..)

/-! ## Roles -/

theorem inputType_nodes (type : Option TypeText) (constructors : Option (List String)) :
    inputTypeNodes (inputType type constructors) = typeNodes type := by
  cases type with
  | some t => rfl
  | none => cases constructors <;> rfl

/-- The role of a member has parts of the member. -/
theorem Becomes.nodes {m : Member} {r : Role} (h : Becomes m r) : roleNodes r ⊆ memberNodes m := by
  cases h with
  | field | ref =>
    simp only [roleNodes, refNodes, memberNodes]
    grind
  | input hkey hfirst hargs =>
    have hfallback := List.Subset.trans (inputOptions_nodes hargs) hfirst.nodes
    simp only [roleNodes, inputNodes, memberNodes, inputType_nodes]
    grind
  | watcher hkey hfirst hargs =>
    have hwatch := List.Subset.trans (watchArguments_nodes hargs) hfirst.nodes
    simp only [roleNodes, watcherNodes, memberNodes]
    grind
  | event | getter | setter | lifecycle | setupHook | method =>
    simp only [roleNodes, eventNodes, memberNodes]
    grind
  | unnamedField | unnamedMethod | classOnly | empty => exact List.nil_subset _

/-! ## Tables -/

theorem stmtsNodes_body (f : Func) : stmtsNodes f.body ⊆ funcNodes f := by
  cases f
  exact List.subset_append_right ..

/-- What stays in place of a role are parts of the role. -/
theorem bodyNodes_item? {r : Role} {item : BodyItem} (h : r.item? = some item) :
    bodyNodes item ⊆ roleNodes r := by
  cases r with
  | setupHook f =>
    rw [Role.item?] at h
    split at h
    · cases h
      exact stmtsNodes_body f
    · cases h
  | lifecycle | field | method | unsupported =>
    cases h
    exact fun _ hn => hn
  | _ => cases h

theorem bodyNodes_beside {item : ModuleItem} {b : BodyItem} (h : b ∈ besideItems item) :
    bodyNodes b ⊆ itemNodes item := by
  cases item with
  | importDecl | component => cases h
  | _ =>
    cases List.mem_singleton.1 h
    exact fun _ hn => hn

/-- The tables of a module hold parts of the module. -/
theorem Tables.nodes_ofModule {source : List Char} {denied : List String} {t : Tables}
    {items : List ModuleItem} (h : ofModule source denied items = .ok t) :
    t.nodes ⊆ moduleNodes items := by
  have hmade := ofModule_madeOf h
  have hrole {r : Role} (hr : ∃ m ∈ moduleMembers items, Becomes m r) :
      roleNodes r ⊆ moduleNodes items := by
    obtain ⟨m, hm, hr⟩ := hr
    obtain ⟨item, hitem, hm⟩ := List.mem_flatMap.1 hm
    intro n hn
    refine List.mem_flatMap.2 ⟨item, hitem, ?_⟩
    cases item with
    | component c => exact List.mem_append_right _ (List.mem_flatMap.2 ⟨m, hm, hr.nodes hn⟩)
    | _ => cases hm
  intro n hn
  simp only [nodes, accessorNodes, List.mem_append, List.mem_flatMap, Option.mem_toList] at hn
  rcases hn with ((((⟨f, hf, hn⟩ | ⟨i, hi, hn⟩) | ⟨a, ha, ⟨f, hf, hn⟩ | ⟨f, hf, hn⟩⟩) |
    ⟨w, hw, hn⟩) | ⟨e, he, hn⟩) | ⟨b, hb, hn⟩
  · exact hrole (hmade.refs f hf) hn
  · exact hrole (hmade.inputs i hi) hn
  · obtain ⟨name, hr⟩ := hmade.getters a ha f hf
    exact hrole hr hn
  · obtain ⟨name, hr⟩ := hmade.setters a ha f hf
    exact hrole hr hn
  · exact hrole (hmade.watchers w hw) hn
  · exact hrole (hmade.events e he) hn
  · rcases hmade.body b hb with ⟨r, hr, hitem⟩ | ⟨index, rfl⟩ | hb
    · exact hrole hr (bodyNodes_item? hitem hn)
    · cases hn
    · obtain ⟨item, hitem, hb⟩ := List.mem_flatMap.1 hb
      exact List.mem_flatMap.2 ⟨item, hitem, bodyNodes_beside hb hn⟩

end ScriptSetup.Component
