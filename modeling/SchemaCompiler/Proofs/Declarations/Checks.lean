import Mathlib.Data.Finset.Card
import Mathlib.Data.Finset.Dedup
import SchemaCompiler.Proofs.Declarations.Places

/-!
What the checks of enums and of required names report. Every enum and every object in the declarations is
checked once, wherever it stands, and what is reported of it is told from its members or its names alone.
-/
namespace SchemaCompiler

/-! ### Members that are listed twice -/

namespace Lint

variable {seen seen' members rest : List String} {m : String} {k : Nat}

/-- A member stands at `k` that was seen before. -/
def MetAgain (seen members : List String) (k : Nat) : Prop :=
  ∃ m, members[k]? = some m ∧ (m ∈ seen ∨ m ∈ members.take k)

theorem metAgain_zero : MetAgain seen (m :: rest) 0 ↔ m ∈ seen := by
  simp [MetAgain]

theorem metAgain_succ : MetAgain seen (m :: rest) (k + 1) ↔ MetAgain (m :: seen) rest k := by
  rw [MetAgain, MetAgain, List.getElem?_cons_succ, List.take_succ_cons]
  refine exists_congr fun x => and_congr_right fun _ => ?_
  rw [List.mem_cons, List.mem_cons]
  tauto

theorem metAgain_congr (hseen : ∀ x, x ∈ seen ↔ x ∈ seen') :
    MetAgain seen members k ↔ MetAgain seen' members k :=
  exists_congr fun x => and_congr_right fun _ => or_congr_left (hseen x)

/-- The members that are repeated stand at the places where a member is met again. -/
theorem repeated_spec (seen members : List String) : ∃ places : List Nat,
    places.Pairwise (· < ·) ∧ (∀ k, k ∈ places ↔ MetAgain seen members k) ∧
    List.Forall₂ (fun k m => members[k]? = some m) places (repeated seen members) := by
  induction members generalizing seen with
  | nil => exact ⟨[], .nil, by simp [MetAgain], .nil⟩
  | cons m rest ih =>
    rw [repeated]
    split
    next hm =>
      have hm : m ∈ seen := List.contains_iff_mem.mp hm
      have hseen (x : String) : x ∈ seen ↔ x ∈ m :: seen := by
        rw [List.mem_cons]
        exact (or_iff_right_of_imp fun hx => hx ▸ hm).symm
      obtain ⟨places, hlt, hmem, hvalues⟩ := ih seen
      refine ⟨0 :: places.map (· + 1), ?_, fun k => ?_, .cons rfl
        (List.forall₂_map_left_iff.mpr hvalues)⟩
      · exact List.pairwise_cons.mpr ⟨by simp, List.pairwise_map.mpr (hlt.imp Nat.succ_lt_succ)⟩
      · cases k with
        | zero => simp [metAgain_zero, hm]
        | succ k =>
          rw [metAgain_succ, ← metAgain_congr hseen, ← hmem]
          simp
    next hm =>
      have hm : m ∉ seen := fun h => hm (List.contains_iff_mem.mpr h)
      obtain ⟨places, hlt, hmem, hvalues⟩ := ih (m :: seen)
      refine ⟨places.map (· + 1), List.pairwise_map.mpr (hlt.imp Nat.succ_lt_succ), fun k => ?_,
        List.forall₂_map_left_iff.mpr hvalues⟩
      cases k with
      | zero => simp [metAgain_zero, hm]
      | succ k =>
        rw [metAgain_succ, ← hmem]
        simp

/-- All members but one of each kind are repeated, and those that were seen before. -/
theorem length_repeated (seen members : List String) :
    (repeated seen members).length + (members.toFinset \ seen.toFinset).card = members.length := by
  induction members generalizing seen with
  | nil => simp [repeated]
  | cons m rest ih =>
    rw [repeated, List.length_cons, List.toFinset_cons]
    split
    next hm =>
      have hm : m ∈ seen.toFinset := by simpa using hm
      rw [Finset.insert_sdiff_of_mem _ hm, List.length_cons, ← ih seen]
      omega
    next hm =>
      have hm : m ∉ seen.toFinset := by simpa using hm
      have hsplit : insert m rest.toFinset \ seen.toFinset =
          insert m (rest.toFinset \ (m :: seen).toFinset) := by
        ext x
        by_cases hx : x = m
        · subst hx
          simp [hm]
        · simp [hx]
      rw [hsplit, Finset.card_insert_of_notMem (by simp), ← ih (m :: seen)]
      omega

example : repeated [] ["a", "b", "a", "a"] = ["a", "a"] := by decide

/-! ### Enums -/

/-- An enum that is met, with its path. -/
structure EnumUse where
  name : String
  members : List String
  path : String

/-- The enum that a shape is. -/
def enumUse? : Shape × String → Option EnumUse
  | (.enum name _ members, path) => some ⟨name, members, path⟩
  | _ => none

/-- The enum at a place in a declaration. One that is an enum itself has no other places. -/
def enumIn? (d : Declaration) (q : List Nat) : Option EnumUse :=
  if d.isEnum then
    if q = [] then some ⟨d.name, d.members, schemaPath d.name⟩ else none
  else (d.whole.at? (schemaPath d.name) q).bind enumUse?

/-- The enum at a place in some declarations. -/
def enumAt? (ds : List Declaration) : List Nat → Option EnumUse := First.among enumIn? ds

/-- What is reported of one enum: that it has no members, or each place where a member is met again. -/
structure EnumUse.Reported (u : EnumUse) (group : List Diagnostic) : Prop where
  empty : u.members = [] → group = [(Finding.emptyEnum u.name).atPath u.path]
  again : u.members ≠ [] → ∃ places : List Nat, places.Pairwise (· < ·) ∧
    (∀ k, k ∈ places ↔ ∃ m, u.members[k]? = some m ∧ m ∈ u.members.take k) ∧
    List.Forall₂ (fun k i => ∃ m, u.members[k]? = some m ∧
      i = (Finding.repeatedMember u.name m).atPath u.path) places group
  count : u.members ≠ [] → group.length + u.members.toFinset.card = u.members.length
  coded : ∀ i ∈ group, i.path = some u.path ∧ i.code = if u.members = [] then "W102" else "W103"

def EnumUse.report (u : EnumUse) : List Diagnostic :=
  (enumFindings u.name u.members).map (·.atPath u.path)

theorem EnumUse.reported (u : EnumUse) : u.Reported u.report := by
  by_cases hm : u.members = []
  · have hr : u.report = [(Finding.emptyEnum u.name).atPath u.path] := by
      rw [report, enumFindings, hm]
      rfl
    rw [hr]
    refine ⟨fun _ => rfl, fun h => absurd hm h, fun h => absurd hm h, fun i hi => ?_⟩
    obtain rfl := List.mem_singleton.mp hi
    exact ⟨rfl, (if_pos hm).symm⟩
  · have hr : u.report = (repeated [] u.members).map
        fun m => (Finding.repeatedMember u.name m).atPath u.path := by
      rw [report, enumFindings, if_neg (by simpa using hm), List.map_map]
      rfl
    rw [hr]
    refine ⟨fun h => absurd h hm, fun _ => ?_, fun _ => ?_, fun i hi => ?_⟩
    · obtain ⟨places, hlt, hmem, hvalues⟩ := repeated_spec [] u.members
      refine ⟨places, hlt, by simpa [MetAgain] using hmem, List.forall₂_map_right_iff.mpr ?_⟩
      exact hvalues.imp fun k m hk => ⟨m, hk, rfl⟩
    · simpa using length_repeated [] u.members
    · obtain ⟨m, _, rfl⟩ := List.mem_map.mp hi
      exact ⟨rfl, (if_neg hm).symm⟩

/-- The enums to check in a declaration: the declaration itself, or those among its shapes. -/
def enumUses (d : Declaration) : List EnumUse :=
  if d.isEnum then [⟨d.name, d.members, schemaPath d.name⟩] else (shapes d).filterMap enumUse?

theorem enums_eq (ds : List Declaration) :
    enums ds = ((ds.flatMap enumUses).map (·.report)).flatten := by
  rw [enums, ← List.flatMap_def, List.flatMap_assoc]
  refine List.flatMap_congr fun d _ => ?_
  rw [enumUses]
  split
  · rw [List.flatMap_singleton]
    rfl
  · rw [List.filterMap_eq_flatMap_toList, List.flatMap_assoc]
    refine List.flatMap_congr ?_
    rintro ⟨shape, path⟩ _
    cases shape <;> simp [enumUse?, EnumUse.report]

/-- The shapes of a declaration are all its parts but itself. -/
theorem shapes_perm (d : Declaration) : ((d.whole, schemaPath d.name) :: shapes d).Perm
    (d.whole.parts (schemaPath d.name)) :=
  d.whole.layers_append_nested_perm (schemaPath d.name)

theorem gathers_enumUses (d : Declaration) : Gathers (enumIn? d) (· ≠ ·) (enumUses d) := by
  unfold enumIn? enumUses
  split
  · exact .singleton (p := []) (fun q => Option.isSome_ite) rfl
  · have hparts := d.whole.gathers_parts (schemaPath d.name)
    -- the declaration itself is no enum, and so it can come first
    exact (hparts.perm (fun p q hlt => ne_of_lt hlt) (shapes_perm d)).filterMap enumUse?

/-! ### Required names -/

/-- The object at a place in a declaration, with its path. A declaration that is an enum has none. -/
def objectIn? (d : Declaration) (q : List Nat) : Option (Declaration × String) :=
  if d.isEnum then none
  else (d.whole.at? (schemaPath d.name) q).bind fun (shape, path) => shape.given?.map (·, path)

/-- The object at a place in some declarations, with its path. -/
def objectAt? (ds : List Declaration) : List Nat → Option (Declaration × String) :=
  First.among objectIn? ds

/-- What is reported of one object: each name that it requires and that no field has. The names that it
requires are in order where they are in order to begin with. -/
def RequiredReported : Declaration × String → List Diagnostic → Prop
  | (owner, path), group => ∃ names : List String,
    names.Sublist owner.required ∧ (owner.required.Pairwise (· < ·) → names.Pairwise (· < ·)) ∧
    (∀ name, name ∈ names ↔ name ∈ owner.required ∧ ∀ f ∈ owner.fields, f.name ≠ name) ∧
    group = names.map (fun name =>
      (Finding.undeclaredRequired owner.name name).atPath s!"{path}.required") ∧
    ∀ i ∈ group, i.path = some s!"{path}.required" ∧ i.code = "W104"

def requiredReport : Declaration × String → List Diagnostic
  | (owner, path) =>
    (owner.required.filter (!(owner.fields.map (·.name)).contains ·)).map fun name =>
      (Finding.undeclaredRequired owner.name name).atPath s!"{path}.required"

theorem required_reported (o : Declaration × String) : RequiredReported o (requiredReport o) := by
  obtain ⟨owner, path⟩ := o
  refine ⟨_, List.filter_sublist, fun hlt => hlt.sublist List.filter_sublist, fun name => ?_, rfl, ?_⟩
  · simp
  · intro i hi
    obtain ⟨name, _, rfl⟩ := List.mem_map.mp hi
    exact ⟨rfl, rfl⟩

/-- The objects to check in a declaration. -/
def owners (d : Declaration) : List (Declaration × String) :=
  if d.isEnum then [] else d.objects (schemaPath d.name)

theorem required_eq (ds : List Declaration) :
    required ds = ((ds.flatMap owners).map requiredReport).flatten := by
  rw [required, ← List.flatMap_def, List.flatMap_assoc]
  refine List.flatMap_congr fun d _ => ?_
  rw [owners]
  split <;> rfl

theorem gathers_owners (d : Declaration) : Gathers (objectIn? d) (· < ·) (owners d) := by
  unfold objectIn? owners
  split
  · exact .nil fun q => Bool.false_ne_true
  · have hobjects := d.whole.objects_eq_filterMap (schemaPath d.name)
    rw [Declaration.whole, Shape.objects] at hobjects
    rw [hobjects]
    exact (d.whole.gathers_parts (schemaPath d.name)).filterMap _

end Lint

/-- Each enum in the declarations is checked once, and so is each object; nothing else is reported of
enums and of required names. All checks together report of references first, then of enums, and then of
required names. -/
theorem checks_exact (ds : List Declaration) :
    (∃ uses groups, Gathers (Lint.enumAt? ds) (· ≠ ·) uses ∧
      List.Forall₂ Lint.EnumUse.Reported uses groups ∧ Lint.enums ds = groups.flatten) ∧
    (∃ owners groups, Gathers (Lint.objectAt? ds) (· < ·) owners ∧
      List.Forall₂ Lint.RequiredReported owners groups ∧ Lint.required ds = groups.flatten) ∧
    (lint Check.all ds).diagnostics = Lint.references ds ++ Lint.enums ds ++ Lint.required ds := by
  refine ⟨⟨_, _, .flatMap_ne fun d _ => Lint.gathers_enumUses d, ?_, Lint.enums_eq ds⟩,
    ⟨_, _, .flatMap_lt fun d _ => Lint.gathers_owners d, ?_, Lint.required_eq ds⟩, ?_⟩
  · exact List.forall₂_map_right_iff.mpr (List.forall₂_same.mpr fun u _ => u.reported)
  · exact List.forall₂_map_right_iff.mpr (List.forall₂_same.mpr fun o _ => Lint.required_reported o)
  · simp [lint, Check.all, Check.run]

end SchemaCompiler
