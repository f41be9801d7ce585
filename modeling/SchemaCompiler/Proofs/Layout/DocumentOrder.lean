import SchemaCompiler.Proofs.Layout.Plan
import SchemaCompiler.Proofs.Lowering.Rearrange

/-!
Document order and plans. Documents that differ in the order of schemas, properties and required
names have one plan, under all settings.
-/
namespace SchemaCompiler.Layout

open Lowering (schemas)

variable {h h' : Heap} {entries entries' : Entries} {ds ds' : List Declaration}

theorem latest?_of_rearranged (hd : Rearranged (·.name) ds ds') (name : String) :
    latest? ds name = latest? ds' name := by
  rw [latest?, latest?, hd]

theorem ofDeclarations_congr (hlatest : ∀ name, latest? ds name = latest? ds' name) (r : Registry)
    (package : Option String) : ofDeclarations r package ds = ofDeclarations r package ds' := by
  rw [ofDeclarations, ofDeclarations, ordered_congr hlatest]

/-- The order of a document has no meaning. Lowering goes through in every order or in none, and what
it gives has one plan or one error under all settings. A plan keeps the last declaration of each
name, and does not depend on the order of declarations with different names. -/
theorem order_free (hh : h.Rearranges h') (he : Rearranged (·.1.text?) entries entries')
    (limit : Int) :
    ((∃ ds, (schemas h limit entries).outcome = .ok ds) ↔
      ∃ ds', (schemas h' limit entries').outcome = .ok ds') ∧
    (∀ ds ds', (schemas h limit entries).outcome = .ok ds →
      (schemas h' limit entries').outcome = .ok ds' →
      ∀ r package, ofDeclarations r package ds = ofDeclarations r package ds') ∧
    (∀ ds ds', Rearranged (·.name) ds ds' →
      ∀ r package, ofDeclarations r package ds = ofDeclarations r package ds') ∧
    ∀ ds ds', (∀ name, latest? ds name = latest? ds' name) →
      ∀ r package, ofDeclarations r package ds = ofDeclarations r package ds' := by
  obtain ⟨hgoes, hsame⟩ := Lowering.schemas_rearranged hh he limit
  refine ⟨hgoes, fun ds ds' hok hok' => ?_, fun ds ds' hd => ?_, fun ds ds' => ofDeclarations_congr⟩
  · exact ofDeclarations_congr (latest?_of_rearranged (hsame ds ds' hok hok'))
  · exact ofDeclarations_congr (latest?_of_rearranged hd)

/-- Two schemas, one of them with two required properties. -/
def formHeap : Heap := ⟨#[
  .entries [(.str "type", .str "object"), (.str "required", .list 1), (.str "properties", .map 2)],
  .items [.str "name", .str "size"],
  .entries [(.str "name", .map 3), (.str "size", .map 3)],
  .entries [(.str "type", .str "string")]]⟩

/-- The same schemas with properties and required names the other way round. -/
def turnedHeap : Heap := ⟨#[
  .entries [(.str "type", .str "object"), (.str "required", .list 1), (.str "properties", .map 2)],
  .items [.str "size", .str "name"],
  .entries [(.str "size", .map 3), (.str "name", .map 3)],
  .entries [(.str "type", .str "string")]]⟩

theorem formHeap_lowered :
    ∃ ds, (schemas formHeap 64 [(.str "A", .map 0), (.str "B", .map 3)]).outcome = .ok ds := by
  have hnamed : Lowering.namedProperties formHeap 0 = [("name", .map 3), ("size", .map 3)] :=
    List.mergeSort_of_pairwise (by decide +kernel)
  have hform : ((Lowering.Stand.ofSchema "A" 0).visit formHeap 64).error? = none := by
    refine Lowering.Stand.error?_visit_eq_none.mpr ⟨by decide +kernel, fun c hc => ?_⟩
    rw [Lowering.Stand.children, Lowering.Stand.way_ofSchema (by decide +kernel),
      Lowering.Stand.properties, Lowering.Stand.ofSchema, hnamed] at hc
    rcases List.mem_cons.mp hc with rfl | hc
    · decide +kernel
    · rw [List.mem_singleton.mp hc]
      decide +kernel
  have hother : ((Lowering.Stand.ofSchema "B" 3).visit formHeap 64).error? = none := by
    decide +kernel
  rw [← Traced.error?_eq_none, schemas, Traced.error?_collect, List.findSome?_cons,
    List.findSome?_cons, Lowering.error?_entry_of_schema rfl, hform,
    Lowering.error?_entry_of_schema rfl, hother]
  rfl

theorem formHeap_rearranges : formHeap.Rearranges turnedHeap := by
  refine ⟨rfl, fun a => ?_, fun a => ?_, fun node a hlist => ?_, fun a => ?_⟩
  · rcases a with _ | _ | _ | _ | a
    case succ.succ.zero => exact .of_perm (.swap _ _ _) (by decide +kernel)
    all_goals exact fun _ => rfl
  · rcases a with _ | _ | _ | _ | a
    case succ.zero => exact .swap _ _ _
    all_goals exact .refl _
  · -- No node is an enum.
    have hnone : formHeap.find? node "enum" = none := by
      rcases node with _ | _ | _ | _ | node
      all_goals rfl
    rw [hnone] at hlist
    cases hlist
  · rcases a with _ | _ | _ | _ | a
    all_goals rfl

theorem formHeap_order_free :
    formHeap.Rearranges turnedHeap ∧
    Rearranged (·.1.text?) [(.str "A", .map 0), (.str "B", .map 3)]
      ([(.str "B", .map 3), (.str "A", .map 0)] : Entries) ∧
    ∃ ds ds', (schemas formHeap 64 [(.str "A", .map 0), (.str "B", .map 3)]).outcome = .ok ds ∧
      (schemas turnedHeap 64 [(.str "B", .map 3), (.str "A", .map 0)]).outcome = .ok ds' ∧
      ∀ r package, ofDeclarations r package ds = ofDeclarations r package ds' := by
  have hentries : Rearranged (·.1.text?) [(.str "A", .map 0), (.str "B", .map 3)]
      ([(.str "B", .map 3), (.str "A", .map 0)] : Entries) :=
    .of_perm (.swap _ _ _) (by decide +kernel)
  obtain ⟨hgoes, hplans, _⟩ := order_free formHeap_rearranges hentries 64
  obtain ⟨ds, hds⟩ := formHeap_lowered
  obtain ⟨ds', hds'⟩ := hgoes.mp ⟨ds, hds⟩
  exact ⟨formHeap_rearranges, hentries, ds, ds', hds, hds', hplans ds ds' hds hds'⟩

end SchemaCompiler.Layout
