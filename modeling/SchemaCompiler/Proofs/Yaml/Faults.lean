import SchemaCompiler.Proofs.Yaml.Tokens
import SchemaCompiler.Proofs.Yaml.Trees
import SchemaCompiler.Yaml.Read

/-!
Faults of documents. A document is at fault where a number or an escape is out of range, and where a node
is to be a truth value, a number or a timestamp and its text is not; two odd uses of mappings in place of
texts come on top. Anything else that is wrong with a document makes it malformed.
-/
namespace SchemaCompiler.Yaml

/-- What is wrong with a text that has to be of a kind. -/
inductive Misfit (text : String) : (kind : String) → Fault → Prop
  | bool (f : Fault) (h : readBool text = .error f) : Misfit text "bool" f
  | int (f : Fault) (h : readInt text = .error f) : Misfit text "int" f
  | float (f : Fault) (h : readFloat text = .error f) : Misfit text "float" f
  | stamp (f : Fault) (h : readStamp text = .error f) : Misfit text "timestamp" f

namespace Graph

variable {g g' g'' : Graph} {id : NodeId} {text : String} {f : Fault}

def HasText (g : Graph) (text : String) : Prop := ∃ id, g.content? id = some (.scalar text)

/-- What can be wrong with the nodes of a graph: a text is not of the kind of a node, a mapping stands for
a timestamp, or mappings that stand for texts lead from one to the other without end. -/
inductive Unreadable (g : Graph) : Fault → Prop
  | text (id : NodeId) (kind text : String) (f : Fault) (htag : g.tag id = coreTag kind)
      (htext : g.HasText text) (hmisfit : Misfit text kind f) : Unreadable g f
  | mapping (id : NodeId) (htag : g.tag id = coreTag "timestamp") (hmapping : g.isMapping id = true) :
      Unreadable g .timestampMapping
  | endless (id : NodeId) (htag : g.tag id = coreTag "value") : Unreadable g .endlessText

/-- A graph as reading leaves it: nodes keep their tags, or become texts, mappings stay mappings, and
texts stay what they are. -/
structure Keeps (g g' : Graph) : Prop where
  tag : ∀ id, g'.tag id = g.tag id ∨ g'.tag id = coreTag "str"
  mapping : ∀ id, g'.isMapping id = g.isMapping id
  text : ∀ id text, g'.content? id = some (.scalar text) ↔ g.content? id = some (.scalar text)

theorem Keeps.refl (g : Graph) : Keeps g g := ⟨fun _ => .inl rfl, fun _ => rfl, fun _ _ => Iff.rfl⟩

theorem Keeps.trans (h : Keeps g g') (h' : Keeps g' g'') : Keeps g g'' := by
  refine ⟨fun id => ?_, fun id => (h'.mapping id).trans (h.mapping id), fun id text => ?_⟩
  · rcases h'.tag id with hsame | hstr
    · rw [hsame]
      exact h.tag id
    · exact .inr hstr
  · exact (h'.text id text).trans (h.text id text)

theorem Keeps.tag_eq {kind : String} (h : Keeps g g') (hkind : coreTag kind ≠ coreTag "str")
    (htag : g'.tag id = coreTag kind) : g.tag id = coreTag kind := by
  rcases h.tag id with hsame | hstr
  · rw [← hsame, htag]
  · exact absurd (htag.symm.trans hstr) hkind

theorem Keeps.hasText (h : Keeps g g') (htext : g'.HasText text) : g.HasText text := by
  obtain ⟨id, hid⟩ := htext
  exact ⟨id, (h.text id text).mp hid⟩

theorem node?_set (g : Graph) (id other : NodeId) (n : Node) : (g.set id n).node? other =
    if other = id then (g.node? id).map fun _ => n else g.node? other := by
  rw [node?, set, node?, node?, Array.getElem?_setIfInBounds]
  by_cases hsame : id = other
  · subst hsame
    rw [if_pos rfl, if_pos rfl]
    by_cases hin : id < g.nodes.size
    · rw [if_pos hin, Array.getElem?_eq_getElem hin]
      rfl
    · rw [if_neg hin, Array.getElem?_eq_none (Nat.not_lt.mp hin)]
      rfl
  · rw [if_neg hsame, if_neg (Ne.symm hsame)]

/-- A node that stays a mapping, or keeps its content, with its tag or as a text. -/
theorem keeps_set {n : Node} (htag : n.tag = g.tag id ∨ n.tag = coreTag "str")
    (hcontent : (∃ entries, g.isMapping id = true ∧ n.content = .mapping entries) ∨
      g.content? id = some n.content) : Keeps g (g.set id n) := by
  cases hnode : g.node? id with
  | none =>
    have hsame : g.set id n = g := by
      rw [set, Array.setIfInBounds_eq_of_size_le (Array.getElem?_eq_none_iff.mp hnode)]
    rw [hsame]
    exact .refl g
  | some m =>
    have hother : ∀ other, other ≠ id → (g.set id n).node? other = g.node? other := by
      intro other hne
      rw [node?_set, if_neg hne]
    have hset : (g.set id n).node? id = some n := by
      rw [node?_set, if_pos rfl, hnode]
      rfl
    refine ⟨fun other => ?_, fun other => ?_, fun other text => ?_⟩
    · by_cases hsame : other = id
      · subst hsame
        rw [tag, hset]
        exact htag
      · rw [tag, hother other hsame]
        exact .inl rfl
    · by_cases hsame : other = id
      · subst hsame
        rw [isMapping, content?, hset]
        rcases hcontent with ⟨entries, hmapping, hn⟩ | hn
        · rw [hmapping, Option.map_some, hn]
        · rw [isMapping, hn]
          rfl
      · rw [isMapping, content?, hother other hsame]
        rfl
    · by_cases hsame : other = id
      · subst hsame
        rw [content?, hset, Option.map_some]
        rcases hcontent with ⟨entries, hmapping, hn⟩ | hn
        · rw [hn]
          constructor
          · rintro ⟨⟩
          · intro hscalar
            rw [isMapping, hscalar] at hmapping
            cases hmapping
        · rw [hn]
      · rw [content?, hother other hsame]
        exact Iff.rfl

theorem keeps_setEntries (hmapping : g.isMapping id = true) (entries : List (NodeId × NodeId)) :
    Keeps g (g.setEntries id entries) :=
  keeps_set (.inl rfl) (.inl ⟨entries, hmapping, rfl⟩)

theorem keeps_setText (g : Graph) (id : NodeId) : Keeps g (g.setText id) := by
  rw [setText]
  cases hnode : g.node? id with
  | none => exact .refl g
  | some n =>
    refine keeps_set (.inr rfl) (.inr ?_)
    rw [content?, hnode]
    rfl

theorem keeps_setTexts (ids : List NodeId) (g : Graph) : Keeps g (ids.foldl setText g) := by
  induction ids generalizing g with
  | nil => exact .refl g
  | cons id ids ih => exact (keeps_setText g id).trans (ih _)

/-- A step that leaves a graph with its nodes, or finds it malformed. -/
def Tidies (g : Graph) (step : Except Error Graph) : Prop :=
  (∃ g', step = .ok g' ∧ Keeps g g') ∨ step = .error .malformed

theorem Keeps.tidies {step : Except Error Graph} (h : Keeps g g') (hstep : Tidies g' step) :
    Tidies g step := by
  rcases hstep with ⟨g'', rfl, h'⟩ | rfl
  · exact .inl ⟨g'', rfl, h.trans h'⟩
  · exact .inr rfl

theorem Tidies.bind {first : Except Error Graph} {step : Graph → Except Error Graph}
    (h : Tidies g first) (hstep : ∀ g', Keeps g g' → Tidies g' (step g')) :
    Tidies g (first >>= step) := by
  rcases h with ⟨g', rfl, hkeeps⟩ | rfl
  · exact hkeeps.tidies (hstep g' hkeeps)
  · exact .inr rfl

theorem tidies_foldlM {step : Graph → NodeId → Except Error Graph}
    (h : ∀ g id, g.isMapping id = true → Tidies g (step g id)) (ids : List NodeId) (g : Graph)
    (hids : ∀ id ∈ ids, g.isMapping id = true) : Tidies g (ids.foldlM step g) := by
  induction ids generalizing g with
  | nil => exact .inl ⟨g, rfl, .refl g⟩
  | cons id ids ih =>
    rw [List.foldlM_cons]
    refine (h g id (hids id (List.mem_cons_self ..))).bind fun g' hkeeps => ih g' fun other hother => ?_
    rw [hkeeps.mapping]
    exact hids other (List.mem_cons_of_mem _ hother)

theorem mergeSources_end (g : Graph) (value : NodeId) :
    (∃ sources, g.mergeSources value = .ok sources ∧ ∀ id ∈ sources, g.isMapping id = true) ∨
      g.mergeSources value = .error .malformed := by
  rw [mergeSources]
  split
  · next entries hcontent =>
    refine .inl ⟨_, rfl, fun id hid => ?_⟩
    rw [List.mem_singleton.mp hid, isMapping, hcontent]
  · split
    · next hall =>
      refine .inl ⟨_, rfl, fun id hid => ?_⟩
      exact List.all_eq_true.mp hall id (List.mem_reverse.mp hid)
    · exact .inr rfl
  · exact .inr rfl

/-- To carry out the merge keys of a mapping keeps the nodes. -/
theorem tidies_flatten (room : Nat) (taken : List (NodeId × NodeId)) (g : Graph) (id : NodeId)
    (hmapping : g.isMapping id = true) : Tidies g (flatten room taken g id) := by
  induction room generalizing taken g id with
  | zero => exact .inl ⟨_, rfl, keeps_setEntries hmapping _⟩
  | succ room ih =>
    rw [flatten]
    split
    · have hkeeps := keeps_setTexts (((g.entries id).map (·.1)).filter fun key =>
        g.tag key == coreTag "value") g
      have hstill := (hkeeps.mapping id).trans hmapping
      exact .inl ⟨_, rfl, hkeeps.trans (keeps_setEntries hstill _)⟩
    · next e _ =>
      have hkeeps := keeps_setEntries hmapping ((g.entries id).erase e)
      refine hkeeps.tidies ?_
      dsimp only
      rcases mergeSources_end (g.setEntries id ((g.entries id).erase e)) e.2 with
        ⟨sources, hsources, hall⟩ | hmalformed
      · rw [hsources]
        refine (tidies_foldlM (ih []) sources.reverse _ ?_).bind fun g' hkeeps' => ih _ g' id ?_
        · exact fun source hsource => hall source (List.mem_reverse.mp hsource)
        · exact ((hkeeps.trans hkeeps').mapping id).trans hmapping
      · rw [hmalformed]
        exact .inr rfl

end Graph

namespace Read

variable {g : Graph} {text : String} {f : Fault} {id : NodeId} {α : Type}

/-- A part of the reading of a graph keeps its nodes, and a fault in it is one of the graph. -/
abbrev Reads (g : Graph) (x : Read α) : Prop :=
  Blames (fun r => Graph.Keeps g r.graph) g.Unreadable (fun _ => True) x

/-- A text comes from a scalar, which is the node itself unless that is a mapping. -/
theorem textOf_ok {room : Nat} (h : textOf g room id = .ok text) :
    g.HasText text ∧ (g.content? id = some (.scalar text) ∨ g.isMapping id = true) := by
  induction room generalizing id with
  | zero => cases h
  | succ room ih =>
    rw [textOf] at h
    split at h
    · next htext =>
      cases h
      exact ⟨⟨id, htext⟩, .inl htext⟩
    · next hcontent =>
      split at h
      · refine ⟨(ih h).1, .inr ?_⟩
        rw [Graph.isMapping, hcontent]
      · cases h
    · cases h

/-- The search for a text goes on for long only where mappings have an entry for it. -/
theorem textOf_fault {room : Nat} (h : textOf g room id = .error (.fault f)) :
    f = .endlessText ∧ (room = 0 ∨ ∃ key, g.tag key = coreTag "value") := by
  induction room generalizing id with
  | zero =>
    cases h
    exact ⟨rfl, .inl rfl⟩
  | succ room ih =>
    rw [textOf] at h
    split at h
    · cases h
    · split at h
      · next e hfind =>
        have htag : (g.tag e.1 == coreTag "value") = true := by simpa using List.find?_some hfind
        exact ⟨(ih h).1, .inr ⟨e.1, eq_of_beq htag⟩⟩
      · cases h
    · cases h

/-- What a node has a text by. -/
theorem blames_text (id : NodeId) :
    Blames (fun r => Graph.Keeps g r.graph) g.Unreadable (fun s => g.HasText s ∧
      (g.content? id = some (.scalar s) ∨ g.isMapping id = true)) (Read.text id) := by
  refine Blames.get.bind fun r hr => .lift (fun s hs => ?_) fun f hf => ?_
  · obtain ⟨htext, hplace⟩ := textOf_ok hs
    rw [hr.text, hr.mapping] at hplace
    exact ⟨hr.hasText htext, hplace⟩
  · obtain ⟨rfl, hzero | ⟨key, htag⟩⟩ := textOf_fault hf
    · cases hzero
    · exact .endless key (hr.tag_eq (by decide) htag)

theorem reads_orFault {result : Except Fault α} (h : ∀ f, result = .error f → g.Unreadable f) :
    Reads g (orFault result) := by
  cases result with
  | ok a => exact .done _
  | error f => exact .fault (h f rfl)

theorem reads_stamp (htag : g.tag id = coreTag "timestamp") : Reads g (stamp id) := by
  rw [stamp]
  refine (blames_text id).bind fun s hs => Blames.get.bind fun r hr => ?_
  obtain ⟨htext, hplace⟩ := hs
  split
  · exact reads_orFault fun f hf => .text id "timestamp" s f htag htext (.stamp f hf)
  · next hscalar =>
    rcases hplace with hown | hmapping
    · exact absurd ((hr.text id s).mpr hown) (hscalar s)
    · exact .fault (.mapping id htag hmapping)

theorem reads_alloc (c : Cell) : Reads g (alloc c) := by
  refine Blames.get.bind fun r hr => Blames.seq (.set ?_) fun _ => .done _
  exact hr

theorem reads_fill (a : Address) (c : Cell) : Reads g (fill a c) :=
  .modify fun _ hr => hr

theorem reads_container (id : NodeId) (filling : Filling) (c : Cell) (place : Address → Value) :
    Reads g (container id filling c place) :=
  (reads_alloc c).seq fun _ => Blames.seq (.modify fun _ hr => hr) fun _ => .done _

theorem reads_valueOf (id : NodeId) : Reads g (valueOf id) := by
  rw [valueOf]
  refine Blames.get.bind fun r hr => ?_
  have htag : ∀ kind, coreTag kind ≠ coreTag "str" →
      (r.graph.tag id == coreTag kind) = true → g.tag id = coreTag kind :=
    fun kind hkind h => hr.tag_eq hkind (eq_of_beq h)
  have hof : ∀ {α : Type} {kind : String} {scalar : String → Except Fault α} {result : α → Value},
      (∀ s f, scalar s = .error f → Misfit s kind f) → coreTag kind ≠ coreTag "str" →
      (r.graph.tag id == coreTag kind) = true →
      Reads g (do return result (← orFault (scalar (← Read.text id)))) := by
    intro α kind scalar result hmisfit hkind h
    refine (blames_text id).bind fun s hs => Blames.seq ?_ fun _ => .done _
    exact reads_orFault fun f hf => .text id kind s f (htag kind hkind h) hs.1 (hmisfit s f hf)
  refine .ite (fun _ => (blames_text id).bind fun _ _ => .done _) fun _ => ?_
  refine .ite (fun _ => (blames_text id).bind fun _ _ => .done _) fun _ => ?_
  refine .ite (fun h => hof (fun _ => .bool) (by decide) h) fun _ => ?_
  refine .ite (fun h => hof (fun _ => .int) (by decide) h) fun _ => ?_
  refine .ite (fun h => hof (fun _ => .float) (by decide) h) fun _ => ?_
  refine .ite (fun h => (reads_stamp (htag _ (by decide) h)).seq fun _ => .done _) fun _ => ?_
  refine .ite (fun _ => (blames_text id).bind fun s _ => ?_) fun _ => ?_
  · split
    · exact .done _
    · exact .malformed
  · refine .ite (fun _ => reads_container id _ _ _) fun _ => ?_
    refine .ite (fun _ => reads_container id _ _ _) fun _ => ?_
    refine .ite (fun _ => reads_container id _ _ _) fun _ => ?_
    refine .ite (fun _ => reads_container id _ _ _) fun _ => ?_
    exact .ite (fun _ => reads_container id _ _ _) fun _ => .malformed

theorem reads_value (id : NodeId) : Reads g (value id) := by
  rw [value]
  refine Blames.get.bind fun r _ => ?_
  split
  · exact .done _
  · exact (reads_valueOf id).seq fun v => Blames.seq (.modify fun _ hr => hr) fun _ => .done _

theorem reads_entriesOf (id : NodeId) : Reads g (entriesOf id) := by
  rw [entriesOf]
  refine Blames.get.bind fun r hr => ?_
  split
  · next entries hcontent =>
    have hmapping : r.graph.isMapping id = true := by rw [Graph.isMapping, hcontent]
    rcases Graph.tidies_flatten (r.merges + 1) [] r.graph id hmapping with ⟨g', hok, hkeeps⟩ | hmalformed
    · rw [hok]
      refine Blames.seq (.set (hr.trans hkeeps)) fun _ => Blames.seq (.mapM _ ?_) fun _ => .done _
      rintro ⟨k, v⟩
      refine (reads_value k).seq fun key => ?_
      split
      · exact (reads_value v).seq fun _ => .done _
      · exact .malformed
    · rw [hmalformed]
      exact .malformed
  · exact .malformed

theorem reads_pairOf (id : NodeId) : Reads g (pairOf id) := by
  rw [pairOf]
  refine Blames.get.bind fun r _ => ?_
  split
  · next k v _ =>
    refine (reads_value k).seq fun key => (reads_value v).seq fun item => ?_
    exact (reads_alloc _).seq fun _ => .done _
  · exact .malformed

theorem reads_itemsOf (id : NodeId) : Reads g (itemsOf id) := by
  rw [itemsOf]
  refine Blames.get.bind fun r _ => ?_
  split
  · exact .done _
  · exact .malformed

theorem reads_complete (p : Pending) : Reads g (complete p) := by
  rw [complete]
  split
  · exact (reads_itemsOf _).seq fun ids => (Blames.mapM ids reads_value).seq fun _ => reads_fill _ _
  · exact (reads_entriesOf _).seq fun _ => reads_fill _ _
  · exact (reads_entriesOf _).seq fun _ => reads_fill _ _
  · exact (reads_itemsOf _).seq fun ids => (Blames.mapM ids reads_pairOf).seq fun _ => reads_fill _ _

theorem reads_completeAll (room : Nat) : Reads g (completeAll room) := by
  induction room with
  | zero => exact .done _
  | succ room ih =>
    rw [completeAll]
    refine Blames.get.bind fun r hr => ?_
    split
    · exact .done _
    · refine Blames.seq (.set ?_) fun _ => (reads_complete _).seq fun _ => ih
      exact hr

end Read

/-- Where the fault of a text is: in a token, or in a node of its document. -/
inductive Faulty (text : String) (f : Fault) : Prop
  | token (htoken : .broken (.fault f) ∈ tokens text) (hrange : OutOfRange f)
  | node (tree : Tree) (root : NodeId) (g : Graph)
      (htree : Tree.ofTokens (tokens text) = .ok (some tree))
      (hgraph : Graph.ofTree tree = .ok (root, g)) (hnode : g.Unreadable f)

theorem read_fault {text : String} {f : Fault} (h : read text = .error (.fault f)) :
    Faulty text f := by
  rw [read] at h
  cases htree : Tree.ofTokens (tokens text) with
  | error e =>
    rw [htree] at h
    cases h
    have htoken := Tree.ofTokens_fault htree
    exact .token htoken (tokens_fault htoken)
  | ok found =>
    rw [htree] at h
    cases found with
    | none => cases h
    | some tree =>
      cases hgraph : Graph.ofTree tree with
      | error e =>
        dsimp only [bind, Except.bind] at h
        rw [hgraph] at h
        cases h
        exact absurd hgraph (Graph.ofTree_ne_fault tree f)
      | ok built =>
        obtain ⟨root, g⟩ := built
        have hreads : Read.Reads g (do
            let v ← Read.value root
            Read.completeAll (g.nodes.size + 1)
            return v) :=
          (Read.reads_value root).seq fun v => (Read.reads_completeAll _).seq fun _ => .done v
        refine .node tree root g htree hgraph ?_
        dsimp only [bind, Except.bind] at h
        rw [hgraph] at h
        dsimp only at h
        split at h
        · next e hend =>
          cases h
          exact (hreads _ (.refl g)).2 f hend
        · cases h

end SchemaCompiler.Yaml
