import SchemaCompiler.Proofs.Yaml.Runs
import SchemaCompiler.Yaml.Graph

/-!
Faults on the way from tokens to a graph. There are none but those that a token tells of: a tree is parsed
from tokens that are left, and its graph is built without looking at its texts.
-/
namespace SchemaCompiler.Yaml

variable {α : Type}

namespace Build

/-- Building stops only where the document is malformed. -/
abbrev Builds (x : Build α) : Prop := Blames (fun _ => True) (fun _ => False) (fun _ => True) x

theorem builds_add (n : Node) : Builds (add n) :=
  Blames.get.bind fun _ _ => (Blames.set trivial).seq fun _ => .done _

theorem builds_setAnchor (p : Properties) (id : NodeId) : Builds (setAnchor p id) := by
  rw [setAnchor]
  cases p.anchor with
  | none => exact .done _
  | some name => exact .modify fun _ _ => trivial

theorem builds_replace (id : NodeId) (n : Node) : Builds (replace id n) :=
  .modify fun _ _ => trivial

mutual

theorem builds_tree : ∀ t, Builds (tree t)
  | .alias name => by
    rw [tree]
    refine Blames.get.bind fun b _ => ?_
    cases b.anchors.lookup name with
    | none => exact .malformed
    | some id => exact .done _
  | .scalar p text plain => by
    rw [tree]
    exact (builds_add _).seq fun id => (builds_setAnchor p id).seq fun _ => .done _
  | .sequence p items => by
    rw [tree]
    refine (builds_add _).seq fun id => (builds_setAnchor p id).seq fun _ => ?_
    refine (builds_trees items).seq fun ids => ?_
    exact (builds_replace id _).seq fun _ => .done _
  | .mapping p entries => by
    rw [tree]
    refine (builds_add _).seq fun id => (builds_setAnchor p id).seq fun _ => ?_
    refine (builds_pairs entries).seq fun ids => ?_
    exact (builds_replace id _).seq fun _ => .done _

theorem builds_trees : ∀ ts, Builds (trees ts)
  | [] => .done _
  | t :: rest => by
    rw [trees]
    exact (builds_tree t).seq fun id => (builds_trees rest).seq fun ids => .done _

theorem builds_pairs : ∀ es, Builds (pairs es)
  | [] => .done _
  | (key, value) :: rest => by
    rw [pairs]
    refine (builds_tree key).seq fun k => (builds_tree value).seq fun v => ?_
    exact (builds_pairs rest).seq fun ids => .done _

end

end Build

theorem Graph.ofTree_ne_fault (t : Tree) (f : Fault) : ofTree t ≠ .error (.fault f) := by
  intro h
  have hbuilds := (Build.builds_tree t ⟨⟨#[]⟩, []⟩ trivial).2 f
  rw [ofTree] at h
  split at h
  · cases h
  · next e hend =>
    cases h
    exact hbuilds hend

namespace Parse

variable {ts : List Token} {handles : List (String × String)} {room : Nat}

/-- Parsing takes its tokens from those given, and stops for a fault only where a token tells of it. -/
abbrev Parses (ts : List Token) (x : Parse α) : Prop :=
  Blames (fun p => p.tokens ⊆ ts) (fun f => .broken (.fault f) ∈ ts) (fun _ => True) x

theorem blames_tokens :
    Blames (fun p => p.tokens ⊆ ts) (fun f => .broken (.fault f) ∈ ts) (· ⊆ ts) tokens :=
  Blames.get.bind fun _ hp => .pure hp

theorem parses_peek : Parses ts peek := by
  rw [peek]
  refine blames_tokens.bind fun held hheld => ?_
  split
  · next e rest =>
    cases e with
    | malformed => exact .malformed
    | fault f => exact .fault (hheld (List.mem_cons_self ..))
  · exact .done _

theorem parses_unexpected : Parses ts (unexpected : Parse α) :=
  parses_peek.seq fun _ => .malformed

theorem parses_drop : Parses ts drop :=
  .modify fun p hp => List.Subset.trans (List.tail_sublist p.tokens).subset hp

theorem parses_ahead (wanted : Token → Bool) : Parses ts (ahead wanted) :=
  parses_peek.seq fun _ => .done _

theorem parses_skip (wanted : Token → Bool) : Parses ts (skip wanted) := by
  rw [skip]
  exact (parses_ahead wanted).seq fun found => .also parses_drop (.done _)

theorem parses_takeAnchor : Parses ts takeAnchor := by
  rw [takeAnchor]
  refine parses_peek.seq fun t => ?_
  split
  · exact parses_drop.seq fun _ => .done _
  · exact .done _

theorem parses_takeTag : Parses ts takeTag := by
  rw [takeTag]
  refine parses_peek.seq fun t => ?_
  split
  · exact parses_drop.seq fun _ => .done _
  · exact .done _

theorem parses_resolved (handles : List (String × String)) (t : TagText) :
    Parses ts (resolved handles t) := by
  rw [resolved]
  split
  · exact .done _
  · split
    · exact .done _
    · exact .malformed

theorem parses_properties (handles : List (String × String)) : Parses ts (properties handles) := by
  rw [properties]
  refine parses_takeAnchor.seq fun anchor => ?_
  split
  · refine parses_takeTag.seq fun tag => ?_
    refine Blames.seq ?_ fun _ => .done _
    cases tag with
    | none => exact .done _
    | some t => exact (parses_resolved handles t).seq fun _ => .done _
  · refine parses_takeTag.seq fun tag => ?_
    split
    · refine parses_takeAnchor.seq fun _ => ?_
      exact (parses_resolved handles _).seq fun _ => .done _
    · exact .done _

theorem parses_declare (p : Properties) : Parses ts (declare p) := by
  rw [declare]
  split
  · refine Blames.get.bind fun s hs => .check ?_
    exact .modify fun _ h => h
  · exact .done _

theorem parses_checkAlias (name : String) : Parses ts (checkAlias name) := by
  rw [checkAlias]
  exact Blames.get.bind fun s hs => .ite (fun _ => .malformed) fun _ => .done _

/-- How the parts of a node are parsed in some room. -/
structure PartsParse (ts : List Token) (handles : List (String × String)) (room : Nat) : Prop where
  node : ∀ position, Parses ts (node handles position room)
  blockItems : Parses ts (blockItems handles room)
  looseItems : Parses ts (looseItems handles room)
  entryPart : Parses ts (entryPart handles room)
  blockEntries : Parses ts (blockEntries handles room)
  flowPart : ∀ ends, Parses ts (flowPart handles ends room)
  flowItems : ∀ first, Parses ts (flowItems handles first room)
  flowEntries : ∀ first, Parses ts (flowEntries handles first room)

theorem parses_sequence {x : Parse (List Tree)} (p : Properties) (h : Parses ts x) :
    Parses ts (do
      declare p
      return Tree.sequence p (← x)) :=
  (parses_declare p).seq fun _ => h.seq fun _ => .done _

theorem parses_mapping {x : Parse (List (Tree × Tree))} (p : Properties) (h : Parses ts x) :
    Parses ts (do
      declare p
      return Tree.mapping p (← x)) :=
  (parses_declare p).seq fun _ => h.seq fun _ => .done _

theorem parses_scalar (p : Properties) (text : String) (plain : Bool) :
    Parses ts (do
      declare p
      return Tree.scalar p text plain) :=
  (parses_declare p).seq fun _ => .done _

theorem PartsParse.node_succ (h : PartsParse ts handles room) (position : Position) :
    Parses ts (Parse.node handles position (room + 1)) := by
  rw [Parse.node]
  refine parses_peek.seq fun t => ?_
  split
  · exact parses_drop.seq fun _ => (parses_checkAlias _).seq fun _ => .done _
  · refine (parses_properties handles).seq fun p => parses_peek.seq fun t => ?_
    split
    · exact parses_sequence p h.looseItems
    · exact parses_drop.seq fun _ => parses_scalar p _ _
    · exact parses_drop.seq fun _ => parses_sequence p (h.flowItems true)
    · exact parses_drop.seq fun _ => parses_mapping p (h.flowEntries true)
    · exact parses_drop.seq fun _ => parses_sequence p h.blockItems
    · exact parses_drop.seq fun _ => parses_sequence p h.blockItems
    · exact parses_drop.seq fun _ => parses_mapping p h.blockEntries
    · exact parses_drop.seq fun _ => parses_mapping p h.blockEntries
    · exact .ite (fun _ => parses_scalar p _ _) fun _ => parses_unexpected

theorem PartsParse.blockItems_succ (h : PartsParse ts handles room) :
    Parses ts (Parse.blockItems handles (room + 1)) := by
  rw [Parse.blockItems]
  refine (parses_skip _).seq fun found => .ite (fun _ => ?_) fun _ => ?_
  · refine .choice (parses_ahead _) (.done _) (h.node .block) fun item => ?_
    exact h.blockItems.seq fun _ => .done _
  · exact (parses_skip _).seq fun found => .ite (fun _ => .done _) fun _ => parses_unexpected

theorem PartsParse.looseItems_succ (h : PartsParse ts handles room) :
    Parses ts (Parse.looseItems handles (room + 1)) := by
  rw [Parse.looseItems]
  refine (parses_skip _).seq fun found => .ite (fun _ => ?_) fun _ => .done _
  refine .choice (parses_ahead _) (.done _) (h.node .block) fun item => ?_
  exact h.looseItems.seq fun _ => .done _

theorem PartsParse.entryPart_succ (h : PartsParse ts handles room) :
    Parses ts (Parse.entryPart handles (room + 1)) := by
  rw [Parse.entryPart]
  exact (parses_ahead _).seq fun found => .ite (fun _ => .done _) fun _ => h.node .entry

theorem PartsParse.blockEntries_succ (h : PartsParse ts handles room) :
    Parses ts (Parse.blockEntries handles (room + 1)) := by
  rw [Parse.blockEntries]
  refine (parses_skip _).seq fun found => .ite (fun _ => ?_) fun _ => ?_
  · refine h.entryPart.seq fun key => .choice (parses_skip _) h.entryPart (.done _) fun value => ?_
    exact h.blockEntries.seq fun _ => .done _
  · exact (parses_skip _).seq fun found => .ite (fun _ => .done _) fun _ => parses_unexpected

theorem PartsParse.flowPart_succ (h : PartsParse ts handles room) (ends : Token → Bool) :
    Parses ts (Parse.flowPart handles ends (room + 1)) := by
  rw [Parse.flowPart]
  exact (parses_ahead _).seq fun found => .ite (fun _ => .done _) fun _ => h.node .flow

theorem PartsParse.flowItems_succ (h : PartsParse ts handles room) (first : Bool) :
    Parses ts (Parse.flowItems handles first (room + 1)) := by
  rw [Parse.flowItems]
  extract_lets item
  have hitem : ∀ u, Parses ts (item u) := by
    intro u
    refine (parses_skip _).seq fun found => .ite (fun _ => ?_) fun _ => ?_
    · refine (h.flowPart _).seq fun key => ?_
      refine .choice (parses_skip _) (h.flowPart _) (.done _) fun value => ?_
      exact (h.flowItems false).seq fun _ => .done _
    · refine (parses_skip _).seq fun found => .ite (fun _ => .done _) fun _ => ?_
      exact (h.node .flow).seq fun _ => (h.flowItems false).seq fun _ => .done _
  refine (parses_skip _).seq fun found => .ite (fun _ => .done _) fun _ => ?_
  refine .ite (fun _ => ?_) fun _ => hitem ()
  exact (parses_skip _).seq fun found => .also parses_unexpected (hitem ())

theorem PartsParse.flowEntries_succ (h : PartsParse ts handles room) (first : Bool) :
    Parses ts (Parse.flowEntries handles first (room + 1)) := by
  rw [Parse.flowEntries]
  extract_lets entry
  have hentry : ∀ u, Parses ts (entry u) := by
    intro u
    refine (parses_skip _).seq fun found => .ite (fun _ => ?_) fun _ => ?_
    · refine (h.flowPart _).seq fun key => ?_
      refine .choice (parses_skip _) (h.flowPart _) (.done _) fun value => ?_
      exact (h.flowEntries false).seq fun _ => .done _
    · refine (parses_skip _).seq fun found => .ite (fun _ => .done _) fun _ => ?_
      exact (h.node .flow).seq fun _ => (h.flowEntries false).seq fun _ => .done _
  refine (parses_skip _).seq fun found => .ite (fun _ => .done _) fun _ => ?_
  refine .ite (fun _ => ?_) fun _ => hentry ()
  exact (parses_skip _).seq fun found => .also parses_unexpected (hentry ())

theorem partsParse (ts : List Token) (handles : List (String × String)) (room : Nat) :
    PartsParse ts handles room := by
  induction room with
  | zero => exact ⟨fun _ => .malformed, .malformed, .malformed, .malformed, .malformed,
      fun _ => .malformed, fun _ => .malformed, fun _ => .malformed⟩
  | succ room ih => exact ⟨ih.node_succ, ih.blockItems_succ, ih.looseItems_succ, ih.entryPart_succ,
      ih.blockEntries_succ, ih.flowPart_succ, ih.flowItems_succ, ih.flowEntries_succ⟩

theorem parses_explicitContent (handles : List (String × String)) (room : Nat) :
    Parses ts (explicitContent handles room) := by
  rw [explicitContent]
  refine parses_peek.seq fun t => ?_
  split
  · exact .done _
  · exact .ite (fun _ => .done _) fun _ => (partsParse ts handles room).node .block

/-- Directives are malformed, or the tokens after them are left. -/
theorem directives_end (versioned : Bool) (handles : List (String × String)) (held : List Token) :
    directives versioned handles held = .error .malformed ∨
      ∃ result, directives versioned handles held = .ok result ∧ result.2 ⊆ held := by
  fun_induction directives versioned handles held with
  | case1 => exact .inl rfl
  | case2 versioned handles major rest _ ih =>
    exact ih.imp_right fun ⟨result, h, hsub⟩ => ⟨result, h, List.subset_cons_of_subset _ hsub⟩
  | case3 => exact .inl rfl
  | case4 versioned handles handle target rest _ ih =>
    exact ih.imp_right fun ⟨result, h, hsub⟩ => ⟨result, h, List.subset_cons_of_subset _ hsub⟩
  | case5 versioned handles rest ih =>
    exact ih.imp_right fun ⟨result, h, hsub⟩ => ⟨result, h, List.subset_cons_of_subset _ hsub⟩
  | case6 versioned handles rest => exact .inr ⟨_, rfl, List.Subset.refl _⟩

theorem blames_directives {held : List Token} (hheld : held ⊆ ts) :
    Blames (fun p => p.tokens ⊆ ts) (fun f => .broken (.fault f) ∈ ts) (fun result => result.2 ⊆ ts)
      (liftM (directives false [] held) : Parse (List (String × String) × List Token)) := by
  rcases directives_end false [] held with h | ⟨result, h, hsub⟩
  · rw [h]
    exact .malformed
  · rw [h]
    exact .pure (List.Subset.trans hsub hheld)

theorem parses_takeDirectives : Parses ts takeDirectives := by
  rw [takeDirectives]
  refine blames_tokens.bind fun held hheld => (blames_directives hheld).bind fun result hresult => ?_
  obtain ⟨handles, rest⟩ := result
  refine Blames.seq (.modify ?_) fun _ => .done _
  exact fun _ _ => hresult

theorem parses_stream : Parses ts stream := by
  rw [stream]
  extract_lets finish
  have hfinish : ∀ tree, Parses ts (finish tree) := by
    intro tree
    refine Blames.seq (.modify ?_) fun _ => parses_peek.seq fun t => ?_
    · exact fun p hp => List.Subset.trans (List.dropWhile_sublist _).subset hp
    · split
      · exact .done _
      · exact parses_takeDirectives.seq fun _ => parses_unexpected
  refine blames_tokens.bind fun held _ => parses_peek.seq fun t => ?_
  split
  · exact .done _
  · refine .ite (fun _ => ?_) fun _ => ((partsParse ts _ _).node .block).seq fun tree => hfinish tree
    refine parses_takeDirectives.seq fun handles => (parses_skip _).seq fun found => ?_
    refine .also parses_unexpected ?_
    exact (parses_explicitContent handles _).seq fun tree => hfinish tree

end Parse

/-- A fault before there is a tree is one that a token tells of. -/
theorem Tree.ofTokens_fault {ts : List Token} {f : Fault} (h : ofTokens ts = .error (.fault f)) :
    .broken (.fault f) ∈ ts := by
  rw [ofTokens] at h
  cases hend : (Parse.stream { tokens := ts } : Except Error (Option Tree × Progress)) with
  | error e =>
    rw [hend] at h
    cases h
    exact (Parse.parses_stream { tokens := ts } (List.Subset.refl ts)).2 f hend
  | ok result =>
    rw [hend] at h
    cases h

end SchemaCompiler.Yaml
