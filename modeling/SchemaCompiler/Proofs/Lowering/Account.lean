import SchemaCompiler.Proofs.Lowering.Conservation
import SchemaCompiler.Proofs.Lowering.Clean

/-!
The account of a lowering run. Every schema is declared or reported, every visit accounts for what
it leaves out, and there are no notes exactly when nothing is malformed.
-/
namespace SchemaCompiler.Lowering

variable {h : Heap} {limit : Int} {node : Address} {s : Stand} {entries : Entries}

/-- What an entry of the schemas mapping leaves. -/
def entryNotes (h : Heap) (limit : Int) (e : Scalar × Value) : List Diagnostic :=
  match schemaStand? e with
  | some s => (s.visit h limit).diagnostics
  | none =>
    let name := e.1.text?.getD ""
    [(Finding.schemaNotMapping name e.2.kindName).atPath (schemaPath name)]

/-- A schema fails as its visit does. -/
theorem error?_entry_of_schema {e : Scalar × Value} (hs : schemaStand? e = some s) :
    (entry h limit e).error? = (s.visit h limit).error? := by
  obtain ⟨k, v⟩ := e
  obtain ⟨name, node, hn, rfl, rfl⟩ := schemaStand?_eq_some.mp hs
  rw [entry, hn]
  change (declaration h limit node ⟨name, schemaPath name⟩ >>= fun d => pure (some d)).error? = _
  rw [Traced.error?_bind_of_forall (e := none) fun d => rfl, Option.or_none, error?_declaration]

/-- A schema is declared as its visit says. -/
theorem entry_of_schema {e : Scalar × Value} (hs : schemaStand? e = some s)
    (hv : (s.visit h limit).error? = none) :
    ∃ d, (s.visit h limit).outcome = .ok (.object none (some d)) ∧
      entry h limit e = ⟨.ok (some d), (s.visit h limit).diagnostics⟩ := by
  obtain ⟨k, v⟩ := e
  obtain ⟨name, node, hn, rfl, rfl⟩ := schemaStand?_eq_some.mp hs
  obtain ⟨d, ho⟩ := Traced.error?_eq_none.mp ((error?_declaration name node).trans hv)
  have hvisit : (Stand.ofSchema name node).visit h limit = ⟨.ok (.object none (some d)),
      (declaration h limit node ⟨name, schemaPath name⟩).diagnostics⟩ := by
    change (declaration h limit node ⟨name, schemaPath name⟩ >>= fun d =>
      pure (Shape.object none (some d))) = _
    rw [Traced.eq_ok_of_outcome ho]
    exact Traced.ok_bind_pure _ _ _
  refine ⟨d, by rw [hvisit], ?_⟩
  rw [hvisit, entry, hn]
  change (declaration h limit node ⟨name, schemaPath name⟩ >>= fun d => pure (some d)) = _
  rw [Traced.eq_ok_of_outcome ho]
  exact Traced.ok_bind_pure _ _ _

/-- The declaration of a schema has its name. -/
theorem name_of_visit {name : String} {d : Declaration}
    (ho : ((Stand.ofSchema name node).visit h limit).outcome = .ok (.object none (some d))) :
    d.name = name := by
  obtain ⟨left, hv, _⟩ := Stand.visit_ok (Traced.error?_eq_none.mpr ⟨_, ho⟩)
  rw [hv, Stand.shapeBy, Stand.way] at ho
  cases he : h.find? node "enum" with
  | none =>
    simp only [Stand.ofSchema, List.isEmpty_nil, he, if_true] at ho
    cases ho
    rfl
  | some v =>
    simp only [Stand.ofSchema, List.isEmpty_nil, he, if_true, Stand.enumShape] at ho
    cases ho
    rfl

/-- An entry that is no schema leaves one note in the place of a declaration. -/
theorem entry_of_other {e : Scalar × Value} (hs : schemaStand? e = none)
    (hk : e.1.text?.isSome) : entry h limit e = ⟨.ok none, entryNotes h limit e⟩ := by
  obtain ⟨k, v⟩ := e
  obtain ⟨name, hn⟩ := Option.isSome_iff_exists.mp hk
  simp only at hn
  rw [entryNotes, hs, entry, hn]
  cases v with
  | map b => simp [schemaStand?, hn, Value.mapping?] at hs
  | _ => rfl

section

variable {ds : List Declaration} {e : Scalar × Value}

/-- When lowering goes through, every entry has a name. -/
theorem named_of_entry (hok : (schemas h limit entries).outcome = .ok ds) (he : e ∈ entries) :
    e.1.text?.isSome := by
  obtain ⟨i, hi⟩ := List.mem_iff_getElem?.mp he
  by_contra hn
  exact schemas_ok_iff.mp ⟨ds, hok⟩ [i] _ (.key hi (by simpa using hn))

theorem error?_visit_of_entry (hok : (schemas h limit entries).outcome = .ok ds) (he : e ∈ entries)
    (hs : schemaStand? e = some s) : (s.visit h limit).error? = none := by
  obtain ⟨i, hi⟩ := List.mem_iff_getElem?.mp he
  exact error?_visit_of_ok hok (p := [i]) (by simp [standAt?, hi, hs, Stand.descend])

/-- What an entry of the schemas mapping comes to when lowering goes through. -/
theorem entry_eq (hok : (schemas h limit entries).outcome = .ok ds) (he : e ∈ entries) :
    ∃ d?, entry h limit e = ⟨.ok d?, entryNotes h limit e⟩ ∧
      (d?.map fun d => Except.ok (Shape.object none (some d))) =
        (schemaStand? e).map fun s => (s.visit h limit).outcome := by
  cases hs : schemaStand? e with
  | some s =>
    obtain ⟨d, ho, hentry⟩ := entry_of_schema hs (error?_visit_of_entry hok he hs)
    exact ⟨some d, by rw [hentry, entryNotes, hs], by simp [ho]⟩
  | none => exact ⟨none, entry_of_other hs (named_of_entry hok he), rfl⟩

/-- An entry has the note of a schema that is no mapping exactly when it is none. -/
theorem countP_entryNotes (hok : (schemas h limit entries).outcome = .ok ds) (he : e ∈ entries) :
    (entryNotes h limit e).countP (·.code == "S001") =
      if (schemaStand? e).isSome then 0 else 1 := by
  cases hs : schemaStand? e with
  | some s =>
    rw [entryNotes, hs, Option.isSome_some, if_pos rfl, List.countP_eq_zero]
    intro i hi
    simpa using code_ne_of_mem_visit (error?_visit_of_entry hok he hs) hi
  | none =>
    rw [entryNotes, hs]
    rfl

/-- An entry leaves nothing exactly when it is a clean schema. -/
theorem entryNotes_eq_nil (hok : (schemas h limit entries).outcome = .ok ds) (he : e ∈ entries) :
    entryNotes h limit e = [] ↔ CleanSchema h e.2 := by
  cases hs : schemaStand? e with
  | some s =>
    have hv := error?_visit_of_entry hok he hs
    obtain ⟨name, node, _, hnode, rfl⟩ := schemaStand?_eq_some.mp hs
    rw [entryNotes, hs, hnode]
    exact schema_clean_iff rfl hv
  | none =>
    rw [entryNotes, hs]
    refine iff_of_false (List.cons_ne_nil _ _) fun hc => ?_
    obtain ⟨name, hn⟩ := Option.isSome_iff_exists.mp (named_of_entry hok he)
    obtain ⟨node, hnode⟩ := hc.exists_map
    have hsome := schemaStand?_eq_some.mpr ⟨name, node, hn, hnode, rfl⟩
    simp [hs] at hsome

end

/-- The declarations are those that the visits of the schemas give. -/
theorem map_declarations {ds : List Declaration}
    (hok : (schemas h limit entries).outcome = .ok ds) :
    (ds.map fun d => Except.ok (Shape.object none (some d))) =
      (entries.filterMap schemaStand?).map fun s => (s.visit h limit).outcome := by
  obtain ⟨_, hds, _⟩ := Traced.collect_eq_ok.mp (Traced.eq_ok_of_outcome hok)
  rw [hds, List.map_filterMap, List.map_filterMap]
  refine List.filterMap_congr fun e he => ?_
  obtain ⟨d?, hentry, hd⟩ := entry_eq hok he
  rw [hentry, ← hd]
  rfl

/-- When lowering goes through, every schema, property, enum member and required name is kept or
has its note, and there are no notes exactly when every schema is clean. -/
theorem schemas_accounted {ds : List Declaration} {issues : List Diagnostic}
    (hok : schemas h limit entries = ⟨.ok ds, issues⟩) :
    (ds.map fun d => Except.ok (Shape.object none (some d))) =
        (entries.filterMap schemaStand?).map (fun s => (s.visit h limit).outcome) ∧
      issues = entries.flatMap (entryNotes h limit) ∧
      entries.length = ds.length + issues.countP (·.code == "S001") ∧
      (∀ p s, standAt? h entries p = some s → ∃ own, Conserves h limit s own) ∧
      (issues = [] ↔ ∀ e ∈ entries, CleanSchema h e.2) := by
  obtain ⟨_, hds, hissues⟩ := Traced.collect_eq_ok.mp hok
  have hout : (schemas h limit entries).outcome = .ok ds := by rw [hok]
  have hnotes : issues = entries.flatMap (entryNotes h limit) := by
    rw [hissues]
    refine List.flatMap_congr fun e he => ?_
    obtain ⟨d?, hentry, _⟩ := entry_eq hout he
    rw [hentry]
  refine ⟨map_declarations hout, hnotes, ?_,
    fun p s hp => ⟨_, conserves_of_visit (error?_visit_of_ok hout hp)⟩, ?_⟩
  · rw [hnotes, hds]
    refine length_eq_kept_add_count fun e he => ?_
    obtain ⟨d?, hentry, hd⟩ := entry_eq hout he
    have hsome : d?.isSome = (schemaStand? e).isSome := by
      simpa only [Option.isSome_map] using congrArg Option.isSome hd
    rw [hentry, countP_entryNotes hout he, ← hsome]
    rfl
  · rw [hnotes, List.flatMap_eq_nil_iff]
    exact forall₂_congr fun e he => entryNotes_eq_nil hout he

/-- A document with a required name and a property that are dropped, and a list for a schema. -/
def strayHeap : Heap := ⟨#[
  .entries [(.str "type", .str "object"), (.str "required", .list 1), (.str "properties", .map 2)],
  .items [.str "x", .scalar (.bool true)],
  .entries [(.str "x", .list 1)]]⟩

def strayEntries : Entries := [(.str "A", .map 0), (.str "B", .list 1)]

theorem stray_accounted : ∃ ds issues, schemas strayHeap 64 strayEntries = ⟨.ok ds, issues⟩ ∧
    strayEntries.length = ds.length + issues.countP (·.code == "S001") ∧
    ¬ ∀ e ∈ strayEntries, CleanSchema strayHeap e.2 := by
  have hnone : (schemas strayHeap 64 strayEntries).error? = none := by decide +kernel
  have hissues : (schemas strayHeap 64 strayEntries).diagnostics ≠ [] := by decide +kernel
  obtain ⟨ds, ho⟩ := Traced.error?_eq_none.mp hnone
  have hok := Traced.eq_ok_of_outcome ho
  obtain ⟨_, _, hcount, _, hclean⟩ := schemas_accounted hok
  exact ⟨ds, _, hok, hcount, fun hc => hissues (hclean.mpr hc)⟩

end SchemaCompiler.Lowering
