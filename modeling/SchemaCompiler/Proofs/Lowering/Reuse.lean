import SchemaCompiler.Proofs.Lowering.Traced
import SchemaCompiler.Visitor

/-!
A visitor after any calls is as good as a new one. A step that is taken inside of some nodes comes back to
them however it ends, so that between two calls a visitor is inside of none; what is left of the earlier
calls are their diagnostics.
-/
namespace SchemaCompiler.Visitor

open Lowering (Site)

variable {α β : Type} {h : Heap} {limit : Int} {stack : List Address} {node : Address} {site : Site}

/-! ### One equation for each way to look at a visitor or to change it -/

theorem run_get (f : Visitor → Visiting α) (w : Visitor) :
    (get >>= f).run.run w = (f w).run.run w := rfl

theorem run_modify (f : Visitor → Visitor) (x : Visiting α) (w : Visitor) :
    (modify f >>= fun _ => x).run.run w = x.run.run (f w) := rfl

theorem run_finally (x : Visiting α) (f : Visitor → Visitor) (w : Visitor) :
    (tryFinally x (modify f)).run.run w = ((x.run.run w).1, f (x.run.run w).2) := by
  unfold tryFinally ExceptT.run StateT.run
  simp only [Functor.map, ExceptT.map, ExceptT.mk, tryFinally', bind, StateT.bind]
  cases x w with
  | mk outcome v => cases outcome <;> rfl

theorem run_enter (node : Address) (path : String) (x : Visiting α) (w : Visitor) :
    (enter node path x).run.run w =
      if w.stack.contains node then (.error (.selfContained path), w)
      else if w.limit ≤ w.stack.length then (.error (.tooDeep w.limit path), w)
      else
        let (outcome, v) := x.run.run { w with stack := node :: w.stack }
        (outcome, { v with stack := v.stack.tail }) := by
  rw [enter, run_get]
  split_ifs
  · rfl
  · rfl
  · rw [run_modify]
    exact run_finally ..

/-! ### Steps that come back -/

/-- What a step does wherever it is taken at a limit and inside of some nodes: it ends like `t`, adds the
diagnostics of `t` and comes back to where it started. -/
def Does (limit : Int) (stack : List Address) (x : Visiting α) (t : Traced α) : Prop :=
  ∀ ds, x.run.run ⟨limit, stack, ds⟩ = (t.outcome, ⟨limit, stack, ds ++ t.diagnostics⟩)

theorem does_leave (t : Traced α) : Does limit stack (leave t) t := by
  obtain ⟨outcome, left⟩ := t
  intro ds
  cases outcome <;> rfl

theorem does_pure (a : α) : Does limit stack (pure a) (pure a) := by
  intro ds
  rw [Traced.pure_def, List.append_nil]
  rfl

theorem Does.bind {x : Visiting α} {t : Traced α} {f : α → Visiting β} {g : α → Traced β}
    (hx : Does limit stack x t) (hf : ∀ a, Does limit stack (f a) (g a)) :
    Does limit stack (x >>= f) (t >>= g) := by
  obtain ⟨outcome, left⟩ := t
  intro ds
  have hx := hx ds
  rw [ExceptT.run_bind, StateT.run_bind, hx]
  cases outcome with
  | error e => rfl
  | ok a =>
    rw [Traced.ok_bind, ← List.append_assoc]
    exact hf a (ds ++ left)

theorem Does.andThen {x : Visiting α} {t : Traced α} (hx : Does limit stack x t) (f : α → β) :
    Does limit stack (x >>= fun a => pure (f a)) (t >>= fun a => pure (f a)) :=
  hx.bind fun a => does_pure (f a)

theorem Does.collect {f : α → Visiting (Option β)} {g : α → Traced (Option β)}
    (hf : ∀ a, Does limit stack (f a) (g a)) (xs : List α) :
    Does limit stack (xs.filterMapM f) (Traced.collect g xs) := by
  induction xs with
  | nil => exact does_pure []
  | cons a rest ih =>
    rw [List.filterMapM_cons, Traced.collect]
    refine (hf a).bind fun b => ?_
    cases b with
    | none =>
      simpa using ih
    | some b => exact ih.andThen _

/-- A visit that is refused leaves everything as it is; one that is not is made inside of the node. -/
theorem does_enter {x : Visiting α} {t : Traced α} {path : String}
    (hx : stack.length < limit → Does limit (node :: stack) x t) :
    Does limit stack (enter node path x)
      (if stack.contains node then .fail (.selfContained path)
      else if limit ≤ stack.length then .fail (.tooDeep limit path)
      else t) := by
  intro ds
  rw [run_enter]
  dsimp only
  split_ifs with hc hd
  · simp [Traced.fail]
  · simp [Traced.fail]
  · rw [hx (by omega) ds]
    rfl

/-! ### The steps of a visit -/

section Parts

variable {visit : Address → Site → Visiting Shape} {traced : Address → Site → Traced Shape}

theorem does_field (hv : ∀ node site, Does limit stack (visit node site) (traced node site))
    (owner : Site) (required : List String) (property : String × Value) :
    Does limit stack (field h visit owner required property)
      (Lowering.field h traced owner required property) := by
  obtain ⟨name, v⟩ := property
  cases v with
  | map node => exact (hv _ _).andThen _
  | scalar _ | list _ | set _ | pair _ => exact (does_leave _).andThen _

theorem does_objectDeclaration
    (hv : ∀ node site, Does limit stack (visit node site) (traced node site)) (node : Address)
    (site : Site) :
    Does limit stack (objectDeclaration h visit node site)
      (Lowering.objectDeclaration h traced node site) := by
  refine (does_leave _).bind fun required => (does_leave _).bind fun properties => ?_
  exact (Does.collect (does_field hv site required) properties).andThen _

theorem does_element (hv : ∀ node site, Does limit stack (visit node site) (traced node site))
    (node : Address) (site : Site) :
    Does limit stack (element h visit node site) (Lowering.element h traced node site) := by
  rw [element, Lowering.element]
  generalize h.find? node "items" = items
  cases items with
  | none => exact (does_leave _).andThen _
  | some v =>
    cases v with
    | map items => exact hv items site.items
    | scalar _ | list _ | set _ | pair _ => exact (does_leave _).andThen _

theorem does_shapeOf (hv : ∀ node site, Does limit stack (visit node site) (traced node site))
    (node : Address) (site : Site) :
    Does limit stack (shapeOf h visit node site) (Lowering.shapeOf h traced node site) := by
  rw [shapeOf, Lowering.shapeOf]
  generalize h.find? node "enum" = enum
  generalize h.find? node "$ref" = target
  cases enum with
  | some _ => exact (does_leave _).andThen _
  | none =>
    cases target with
    | none =>
      dsimp only
      split_ifs
      · exact (does_objectDeclaration hv node site).andThen _
      · exact (does_element hv node site).andThen _
      · exact does_leave _
    | some v =>
      cases v with
      | scalar c =>
        cases c with
        | str pointer =>
          dsimp only
          split_ifs
          · exact does_leave _
          · exact does_pure _
        | _ => exact does_leave _
      | list _ | map _ | set _ | pair _ => exact does_leave _

theorem does_declarationOf
    (hv : ∀ node site, Does limit stack (visit node site) (traced node site)) (node : Address)
    (site : Site) :
    Does limit stack (declarationOf h visit node site)
      (Lowering.declarationOf h traced node site) := by
  have ho := does_objectDeclaration (h := h) hv node site
  simp only [declarationOf, Lowering.declarationOf]
  generalize h.find? node "enum" = enum
  cases enum with
  | some _ => exact (does_leave _).andThen _
  | none =>
    dsimp only
    split_ifs
    · exact (does_leave _).bind fun shown => (does_leave _).bind fun _ => ho
    · exact ho

end Parts

/-- A node takes one level of the limit and leaves the others to the nodes below it. -/
theorem traced_shape (h : Heap) (limit : Int) (stack : List Address) (node : Address) (site : Site) :
    Lowering.shape h limit (limit.toNat - stack.length) stack node site =
      if stack.contains node then .fail (.selfContained site.path)
      else if limit ≤ stack.length then .fail (.tooDeep limit site.path)
      else Lowering.shapeOf h
        (Lowering.shape h limit (limit.toNat - (node :: stack).length) (node :: stack)) node site := by
  by_cases hd : limit ≤ stack.length
  · have hfull : limit.toNat - stack.length = 0 := by omega
    rw [hfull, Lowering.shape, if_pos hd]
    split_ifs <;> rfl
  · have hroom : limit.toNat - stack.length = limit.toNat - (node :: stack).length + 1 := by
      rw [List.length_cons]
      omega
    rw [hroom, Lowering.shape, if_neg hd]

/-- With as much room as the limit leaves, the room is never what ends a visit. -/
theorem does_shape (room : Nat) (hroom : limit.toNat - stack.length ≤ room) (node : Address)
    (site : Site) :
    Does limit stack (shape h room node site)
      (Lowering.shape h limit (limit.toNat - stack.length) stack node site) := by
  induction room generalizing stack node site with
  | zero =>
    rw [traced_shape, shape]
    exact does_enter fun hlt => by omega
  | succ room ih =>
    rw [traced_shape, shape]
    refine does_enter fun hlt => does_shapeOf (fun below site => ?_) node site
    exact ih (by rw [List.length_cons]; omega) below site

theorem traced_declaration (h : Heap) (limit : Int) (node : Address) (site : Site) :
    Lowering.declaration h limit node site =
      if limit ≤ 0 then .fail (.tooDeep limit site.path)
      else Lowering.declarationOf h
        (Lowering.shape h limit (limit.toNat - [node].length) [node]) node site := by
  rw [Lowering.declaration]
  split
  next hfull => rw [if_pos (by omega)]
  next room hroom => rw [if_neg (by omega), hroom]; rfl

theorem does_get {f : Visitor → Visiting α} {t : Traced α}
    (hf : ∀ ds, Does limit stack (f ⟨limit, stack, ds⟩) t) : Does limit stack (get >>= f) t :=
  fun ds => hf ds ds

theorem does_declaration (node : Address) (site : Site) :
    Does limit [] (declaration h node site) (Lowering.declaration h limit node site) := by
  rw [traced_declaration, declaration]
  refine does_get fun ds => ?_
  have hbelow : ∀ below site, Does limit [node] (shape h limit.toNat below site)
      (Lowering.shape h limit (limit.toNat - [node].length) [node] below site) :=
    does_shape limit.toNat (Nat.sub_le ..)
  have hd : Does limit [] (enter node site.path (declarationOf h (shape h limit.toNat) node site)) _ :=
    does_enter fun _ => does_declarationOf hbelow node site
  simpa using hd

theorem does_entry (e : Scalar × Value) :
    Does limit [] (entry h e) (Lowering.entry h limit e) := by
  obtain ⟨key, v⟩ := e
  refine (does_leave _).bind fun name => ?_
  cases v with
  | map node => exact (does_declaration node _).andThen _
  | scalar _ | list _ | set _ | pair _ => exact (does_leave _).andThen _

/-! ### Calls -/

/-- What a call does to a visitor that is inside of no node. -/
def Call.traced (h : Heap) (limit : Int) : Call → Traced Answer
  | .schemas entries =>
    let t := Lowering.schemas h limit entries
    return .schemas (← t) ⟨t.diagnostics⟩
  | .declaration node site =>
    let path := if site.path == "" then schemaPath site.name else site.path
    return .declaration (← Lowering.declaration h limit node ⟨site.name, path⟩)
  | .shape node site => return .shape (← Lowering.shape h limit limit.toNat [] node site)

/-- What a call keeps of the diagnostics before it: nothing when it starts anew. -/
def Call.kept : Call → List Diagnostic → List Diagnostic
  | .schemas _, _ => []
  | _, ds => ds

/-- A step from no diagnostics can read its own ones off the visitor. -/
theorem Does.report {x : Visiting α} {t : Traced α} (hx : Does limit stack x t)
    (f : α → List Diagnostic → β) :
    (x >>= fun a => get >>= fun w => pure (f a w.diagnostics)).run.run ⟨limit, stack, []⟩ =
      ((t >>= fun a => pure (f a t.diagnostics)).outcome, ⟨limit, stack, t.diagnostics⟩) := by
  rw [ExceptT.run_bind, StateT.run_bind, hx []]
  obtain ⟨outcome, left⟩ := t
  cases outcome <;> rfl

/-- However a call ends, the visitor is inside of no node again. -/
theorem Call.on_idle (h : Heap) (c : Call) (limit : Int) (ds : List Diagnostic) :
    c.on h ⟨limit, [], ds⟩ =
      ((c.traced h limit).outcome, ⟨limit, [], c.kept ds ++ (c.traced h limit).diagnostics⟩) := by
  cases c with
  | schemas entries =>
    have hs : Does limit [] (entries.filterMapM (entry h)) (Lowering.schemas h limit entries) :=
      Does.collect does_entry entries
    rw [Call.on, Call.run, Visitor.schemas, bind_assoc, run_modify]
    refine (hs.report fun ds left => Answer.schemas ds ⟨left⟩).trans ?_
    rw [Call.traced]
    generalize Lowering.schemas h limit entries = t
    obtain ⟨outcome, left⟩ := t
    cases outcome with
    | error e => rfl
    | ok ds => rw [Traced.ok_bind_pure]; rfl
  | declaration node site => exact (does_declaration node _).andThen _ ds
  | shape node site =>
    exact does_get (fun ds => (does_shape _ (by simp) node site).andThen _) ds

/-- A visitor after calls. -/
def after (h : Heap) (w : Visitor) (calls : List Call) : Visitor :=
  calls.foldl (fun w c => (c.on h w).2) w

/-- Between its calls a visitor keeps its limit and is inside of no node. -/
theorem after_idle (h : Heap) (limit : Int) (ds : List Diagnostic) (calls : List Call) :
    ∃ left, after h ⟨limit, [], ds⟩ calls = ⟨limit, [], left⟩ := by
  induction calls generalizing ds with
  | nil => exact ⟨ds, rfl⟩
  | cons c rest ih =>
    rw [after, List.foldl_cons, Call.on_idle]
    exact ih _

/-- Whatever a visitor was asked for before, a call to it ends as one to a new visitor. What it leaves is
what it leaves in a new one, after the diagnostics that it keeps of the earlier calls. -/
theorem call_after_calls (h : Heap) (limit : Int) (before : List Call) (c : Call) :
    let w := after h (fresh limit) before
    let new := c.on h (fresh limit)
    c.on h w =
      (new.1, { new.2 with diagnostics := c.kept w.diagnostics ++ new.2.diagnostics }) := by
  obtain ⟨left, hleft⟩ := after_idle h limit [] before
  have hnew : c.kept [] = [] := by cases c <;> rfl
  simp only [fresh, hleft, Call.on_idle, hnew, List.nil_append]

end SchemaCompiler.Visitor
