import Mathlib.Data.List.Flatten
import Mathlib.Data.List.Nodup
import Mathlib.Data.List.Perm.Basic
import ProtoBindings.Proofs.Descriptor.Declaration

namespace ProtoBindings.Descriptor

open Resolver (Symbol enumSymbols fileSymbols messageSymbols messagesSymbols refAt)

/-- The messages side by side under a path of messages none of which is a map entry. -/
inductive File.Scope (file : File) : List String → List Message → Prop
  | top : file.Scope [] file.messages
  | inside {scope messages m} : file.Scope scope messages → m ∈ messages → m.isMapEntry = false →
      file.Scope (scope ++ [m.name]) m.messages

/-- A message that neither is a map entry nor is nested in one, with its path. -/
inductive File.Shows (file : File) : List String → Message → Prop
  | intro {scope messages m} : file.Scope scope messages → m ∈ messages → m.isMapEntry = false →
      file.Shows (scope ++ [m.name]) m

mutual

@[elab_as_elim]
theorem Message.induction {P : Message → Prop} (step : ∀ m : Message, (∀ inner ∈ m.messages, P inner) → P m) :
    ∀ m, P m
  | ⟨name, fields, oneofs, messages, enums, isMapEntry⟩ =>
    step ⟨name, fields, oneofs, messages, enums, isMapEntry⟩ (Message.induction_list step messages)

theorem Message.induction_list {P : Message → Prop}
    (step : ∀ m : Message, (∀ inner ∈ m.messages, P inner) → P m) :
    ∀ messages : List Message, ∀ m ∈ messages, P m
  | [] => fun _ member => nomatch member
  | first :: rest =>
    List.forall_mem_cons.mpr ⟨Message.induction step first, Message.induction_list step rest⟩

end

theorem nodesOf_eq (scope : List String) (inEntry : Bool) (messages : List Message) :
    nodesOf scope inEntry messages = messages.flatMap (·.nodes scope inEntry) := by
  induction messages with
  | nil => rfl
  | cons first rest ih => rw [nodesOf, ih, List.flatMap_cons]

theorem Message.nodes_eq (m : Message) (scope : List String) (inEntry : Bool) :
    m.nodes scope inEntry =
      m.messages.flatMap (·.nodes (scope ++ [m.name]) (inEntry || m.isMapEntry)) ++
        [⟨scope, inEntry, m⟩] := by
  obtain ⟨name, fields, oneofs, messages, enums, isMapEntry⟩ := m
  rw [Message.nodes, nodesOf_eq]

theorem Message.mem_nodes {n : Node} {m : Message} {scope : List String} {inEntry : Bool} :
    n ∈ m.nodes scope inEntry ↔ (∃ inner ∈ m.messages,
      n ∈ inner.nodes (scope ++ [m.name]) (inEntry || m.isMapEntry)) ∨ n = ⟨scope, inEntry, m⟩ := by
  rw [m.nodes_eq, List.mem_append, List.mem_flatMap, List.mem_singleton]

namespace Node

def subtree (n : Node) : List Node := n.message.nodes n.scope n.inEntry

theorem subtree_eq (n : Node) :
    n.subtree = n.message.messages.flatMap (·.nodes n.path n.isHidden) ++ [n] := by
  rw [subtree, Message.nodes_eq]
  rfl

end Node

theorem Message.subtree_sublist {n : Node} (m : Message) {scope : List String} {inEntry : Bool}
    (member : n ∈ m.nodes scope inEntry) : n.subtree.Sublist (m.nodes scope inEntry) := by
  induction m using Message.induction generalizing scope inEntry with
  | step m ih =>
    rcases Message.mem_nodes.mp member with ⟨inner, isInner, below⟩ | rfl
    · have inside := (List.singleton_sublist.mpr isInner).flatMap
        (·.nodes (scope ++ [m.name]) (inEntry || m.isMapEntry))
      rw [List.flatMap_singleton] at inside
      rw [m.nodes_eq scope inEntry]
      exact ((ih inner isInner below).trans inside).trans (List.sublist_append_left _ _)
    · exact List.Sublist.refl _

theorem Message.path_of_node {n : Node} (m : Message) {scope : List String} {inEntry : Bool}
    (member : n ∈ m.nodes scope inEntry) : scope ++ [m.name] <+: n.path := by
  induction m using Message.induction generalizing scope inEntry with
  | step m ih =>
    rcases Message.mem_nodes.mp member with ⟨inner, isInner, below⟩ | rfl
    · exact (List.prefix_append _ [inner.name]).trans (ih inner isInner below)
    · exact List.prefix_refl _

theorem Message.node_above {n : Node} (m : Message) {scope path : List String} {inEntry : Bool}
    (member : n ∈ m.nodes scope inEntry) (longer : scope.length < path.length) (above : path <+: n.path) :
    ∃ outer ∈ m.nodes scope inEntry, outer.path = path ∧ n ∈ outer.subtree := by
  induction m using Message.induction generalizing scope inEntry with
  | step m ih =>
    have own : scope ++ [m.name] <+: n.path := m.path_of_node member
    have length : (scope ++ [m.name]).length = scope.length + 1 := by simp
    by_cases here : path.length = (scope ++ [m.name]).length
    · refine ⟨⟨scope, inEntry, m⟩, Message.mem_nodes.mpr (.inr rfl), ?_, member⟩
      exact ((List.prefix_of_prefix_length_le above own (Nat.le_of_eq here)).eq_of_length here).symm
    · rcases Message.mem_nodes.mp member with ⟨inner, isInner, below⟩ | rfl
      · obtain ⟨outer, isOuter, atPath, inside⟩ := ih inner isInner below (by omega)
        exact ⟨outer, Message.mem_nodes.mpr (.inl ⟨inner, isInner, isOuter⟩), atPath, inside⟩
      · have short : path.length ≤ (scope ++ [m.name]).length := above.length_le
        omega

section File

variable {file : File} {n : Node}

theorem File.mem_nodes : n ∈ file.nodes ↔ ∃ m ∈ file.messages, n ∈ m.nodes [] false := by
  rw [File.nodes, nodesOf_eq, List.mem_flatMap]

theorem File.subtree_sublist (member : n ∈ file.nodes) : n.subtree.Sublist file.nodes := by
  obtain ⟨m, isMessage, below⟩ := File.mem_nodes.mp member
  have inside := (List.singleton_sublist.mpr isMessage).flatMap (·.nodes [] false)
  rw [List.flatMap_singleton] at inside
  rw [File.nodes, nodesOf_eq]
  exact (m.subtree_sublist below).trans inside

theorem File.node_above {path : List String} (member : n ∈ file.nodes) (nonempty : path ≠ [])
    (above : path <+: n.path) : ∃ outer ∈ file.nodes, outer.path = path ∧ n ∈ outer.subtree := by
  obtain ⟨m, isMessage, below⟩ := File.mem_nodes.mp member
  obtain ⟨outer, isOuter, found⟩ := m.node_above below (List.length_pos_iff.mpr nonempty) above
  exact ⟨outer, File.mem_nodes.mpr ⟨m, isMessage, isOuter⟩, found⟩

theorem File.Scope.nodes_sublist {scope : List String} {messages : List Message}
    (here : file.Scope scope messages) : (messages.flatMap (·.nodes scope false)).Sublist file.nodes := by
  induction here with
  | top => rw [File.nodes, nodesOf_eq]
  | @inside scope messages m _ member notEntry ih =>
    have inside := (List.singleton_sublist.mpr member).flatMap (·.nodes scope false)
    rw [List.flatMap_singleton, m.nodes_eq, notEntry] at inside
    exact ((List.sublist_append_left _ _).trans inside).trans ih

theorem File.Scope.node {scope : List String} {messages : List Message} {m : Message}
    (here : file.Scope scope messages) (member : m ∈ messages) : ⟨scope, false, m⟩ ∈ file.nodes :=
  here.nodes_sublist.subset
    (List.mem_flatMap.mpr ⟨m, member, Message.mem_nodes.mpr (.inr rfl)⟩)

theorem Message.shows_of_node {m : Message} {scope : List String} {messages : List Message}
    (here : file.Scope scope messages) (isMessage : m ∈ messages) (member : n ∈ m.nodes scope false)
    (shown : n.isHidden = false) : file.Shows n.path n.message := by
  induction m using Message.induction generalizing scope messages with
  | step m ih =>
    cases notEntry : m.isMapEntry with
    | true => exact absurd (m.nodes_of_entry scope notEntry n member) (by simp [shown])
    | false =>
      rcases Message.mem_nodes.mp member with ⟨inner, isInner, below⟩ | rfl
      · rw [notEntry, Bool.or_false] at below
        exact ih inner isInner (here.inside isMessage notEntry) isInner below
      · exact .intro here isMessage notEntry

theorem File.shows_iff {path : List String} {m : Message} :
    file.Shows path m ↔ ∃ n ∈ file.nodes, n.isHidden = false ∧ n.path = path ∧ n.message = m := by
  constructor
  · rintro ⟨here, member, notEntry⟩
    exact ⟨_, here.node member, notEntry, rfl, rfl⟩
  · rintro ⟨n, isNode, shown, rfl, rfl⟩
    obtain ⟨m, isMessage, below⟩ := File.mem_nodes.mp isNode
    exact m.shows_of_node .top isMessage below shown

section Order

variable (distinct : (file.nodes.map (·.path)).Nodup) {n' : Node} (member : n ∈ file.nodes)
  (member' : n' ∈ file.nodes)
include distinct member member'

theorem File.node_eq_of_path (same : n.path = n'.path) : n = n' :=
  List.inj_on_of_nodup_map distinct member member' same

theorem File.subtree_of_prefix (above : n.path <+: n'.path) : n' ∈ n.subtree := by
  have nonempty : n.path ≠ [] := by simp [Node.path]
  obtain ⟨outer, isOuter, atPath, inside⟩ := File.node_above member' nonempty above
  rwa [File.node_eq_of_path distinct isOuter member atPath] at inside

theorem File.nested_before (above : n.path <+: n'.path) (other : n.path ≠ n'.path) :
    [n', n].Sublist file.nodes := by
  have inside := File.subtree_of_prefix distinct member member' above
  refine List.Sublist.trans ?_ (File.subtree_sublist member)
  rw [n.subtree_eq, List.mem_append, List.mem_singleton] at inside
  rw [n.subtree_eq]
  rcases inside with below | rfl
  · exact (List.singleton_sublist.mpr below).append (List.Sublist.refl [n])
  · exact absurd rfl other

theorem File.sibling_before {scope : List String} {messages : List Message} {a b : Message}
    (here : file.Scope scope messages) (order : [a, b].Sublist messages)
    (below : scope ++ [a.name] <+: n.path) (below' : scope ++ [b.name] <+: n'.path) :
    [n, n'].Sublist file.nodes := by
  have first : n ∈ a.nodes scope false :=
    File.subtree_of_prefix distinct (here.node (order.subset (by simp))) member below
  have second : n' ∈ b.nodes scope false :=
    File.subtree_of_prefix distinct (here.node (order.subset (by simp))) member' below'
  have both := order.flatMap (·.nodes scope false)
  rw [List.flatMap_cons, List.flatMap_singleton] at both
  have pair := (List.singleton_sublist.mpr first).append (List.singleton_sublist.mpr second)
  exact (pair.trans both).trans here.nodes_sublist

end Order

end File

section Symbols

variable {file : File}

def Node.enumPaths (n : Node) : List (List String) := n.message.enums.map fun e => n.path ++ [e.name]

theorem messagesSymbols_eq (file : File) (scope : List String) (messages : List Message) :
    messagesSymbols file scope messages = messages.flatMap (messageSymbols file scope) := by
  induction messages with
  | nil => rfl
  | cons first rest ih => rw [messagesSymbols, ih, List.flatMap_cons]

theorem Message.symbols_eq (m : Message) (file : File) (scope : List String) :
    messageSymbols file scope m = ⟨refAt file (scope ++ [m.name]), .message m⟩ ::
      m.messages.flatMap (messageSymbols file (scope ++ [m.name])) ++
        enumSymbols file (scope ++ [m.name]) m.enums := by
  obtain ⟨name, fields, oneofs, messages, enums, isMapEntry⟩ := m
  rw [messageSymbols, messagesSymbols_eq]

theorem enumSymbols_paths (file : File) (scope : List String) (enums : List Enum) :
    (enumSymbols file scope enums).map (·.ref.path) = enums.map fun e => scope ++ [e.name] := by
  rw [enumSymbols, List.map_map]
  rfl

theorem Message.symbols_perm (m : Message) (file : File) (scope : List String) (inEntry : Bool) :
    ((messageSymbols file scope m).map (·.ref.path)).Perm
      ((m.nodes scope inEntry).flatMap fun n => n.path :: n.enumPaths) := by
  induction m using Message.induction generalizing scope inEntry with
  | step m ih =>
    have inner : ((m.messages.flatMap (messageSymbols file (scope ++ [m.name]))).map (·.ref.path)).Perm
        ((m.messages.flatMap (·.nodes (scope ++ [m.name]) (inEntry || m.isMapEntry))).flatMap
          fun n => n.path :: n.enumPaths) := by
      rw [List.map_flatMap, List.flatMap_assoc]
      exact List.Perm.flatMap_left _ fun child isChild => ih child isChild _ _
    rw [m.symbols_eq, m.nodes_eq, List.flatMap_append, List.flatMap_singleton, List.map_append,
      List.map_cons, enumSymbols_paths]
    exact ((inner.append_right _).cons _).trans List.perm_middle.symm

/-- Each declaration is one symbol: the messages of the nodes, the enums outside messages and those in
    the nodes. -/
theorem File.symbols_perm (file : File) : ((fileSymbols file).map (·.ref.path)).Perm
    (file.nodes.map (·.path) ++
      (file.enums.map (fun e => [e.name]) ++ file.nodes.flatMap (·.enumPaths))) := by
  have messages : ((messagesSymbols file [] file.messages).map (·.ref.path)).Perm
      (file.nodes.flatMap fun n => n.path :: n.enumPaths) := by
    rw [messagesSymbols_eq, File.nodes, nodesOf_eq, List.map_flatMap, List.flatMap_assoc]
    exact List.Perm.flatMap_left _ fun m _ => m.symbols_perm file [] false
  have apart := List.flatMap_append_perm file.nodes (fun n => [n.path]) (·.enumPaths)
  rw [← List.map_eq_flatMap] at apart
  rw [fileSymbols, List.map_append, enumSymbols_paths]
  refine ((messages.trans apart.symm).append_right _).trans ?_
  rw [List.append_assoc]
  exact List.perm_append_comm.append_left _

theorem File.symbolPaths_nodup (distinct : ((fileSymbols file).map (·.ref.fullName)).Nodup) :
    ((fileSymbols file).map (·.ref.path)).Nodup := by
  have byPath : (fileSymbols file).map (·.ref.fullName) =
      ((fileSymbols file).map (·.ref.path)).map fun path => (refAt file path).fullName := by
    rw [List.map_map]
    refine List.map_congr_left fun s declared => ?_
    obtain ⟨path, atPath⟩ := File.symbol_file declared
    rw [Function.comp_apply, atPath]
    rfl
  exact List.Nodup.of_map _ (byPath ▸ distinct)

theorem File.nodePaths_nodup (distinct : ((fileSymbols file).map (·.ref.fullName)).Nodup) :
    (file.nodes.map (·.path)).Nodup :=
  (List.nodup_append.mp (file.symbols_perm.nodup_iff.mp (File.symbolPaths_nodup distinct))).1

theorem File.enumPaths_nodup (distinct : ((fileSymbols file).map (·.ref.fullName)).Nodup) :
    (file.enums.map (fun e => [e.name]) ++ file.nodes.flatMap (·.enumPaths)).Nodup :=
  (List.nodup_append.mp (file.symbols_perm.nodup_iff.mp (File.symbolPaths_nodup distinct))).2.1

end Symbols

inductive File.ShowsEnum (file : File) : List String → Enum → Prop
  | top {e} : e ∈ file.enums → file.ShowsEnum [e.name] e
  | nested {scope m e} : file.Shows scope m → e ∈ m.enums → file.ShowsEnum (scope ++ [e.name]) e

end ProtoBindings.Descriptor
