import ProtoBindings.Proofs.Descriptor.Node

namespace ProtoBindings.Descriptor

open Resolver (Declaration Symbol fileSymbols refAt)

inductive File.Declares (file : File) : List String → Declaration → Prop
  | message {m} : m ∈ file.messages → Declares file [m.name] (.message m)
  | enum {e} : e ∈ file.enums → Declares file [e.name] .enum
  | nested {path outer m} : Declares file path (.message outer) → m ∈ outer.messages →
      Declares file (path ++ [m.name]) (.message m)
  | nestedEnum {path outer e} : Declares file path (.message outer) → e ∈ outer.enums →
      Declares file (path ++ [e.name]) .enum

theorem mem_nodesOf {scope : List String} {inEntry : Bool} {m : Message} {messages : List Message}
    (member : m ∈ messages) : ⟨scope, inEntry, m⟩ ∈ nodesOf scope inEntry messages := by
  induction messages with
  | nil => cases member
  | cons first rest ih =>
    rw [nodesOf, List.mem_append]
    rcases List.mem_cons.mp member with rfl | member
    · obtain ⟨name, fields, oneofs, messages, enums, isMapEntry⟩ := m
      exact .inl (by simp [Message.nodes])
    · exact .inr (ih member)

mutual

theorem Message.nodes_nested {n : Node} {m : Message} (isNested : m ∈ n.message.messages)
    (scope : List String) (inEntry : Bool) : ∀ message : Message, n ∈ message.nodes scope inEntry →
      ∃ inner ∈ message.nodes scope inEntry, inner.scope = n.path ∧ inner.message = m
  | ⟨name, fields, oneofs, messages, enums, isMapEntry⟩, member => by
    rw [Message.nodes, List.mem_append, List.mem_singleton] at member
    rw [Message.nodes]
    rcases member with member | rfl
    · obtain ⟨inner, isNode, found⟩ := nodesOf_nested isNested _ _ messages member
      exact ⟨inner, List.mem_append_left _ isNode, found⟩
    · exact ⟨_, List.mem_append_left _ (mem_nodesOf isNested), rfl, rfl⟩

theorem nodesOf_nested {n : Node} {m : Message} (isNested : m ∈ n.message.messages)
    (scope : List String) (inEntry : Bool) : ∀ messages : List Message,
      n ∈ nodesOf scope inEntry messages →
      ∃ inner ∈ nodesOf scope inEntry messages, inner.scope = n.path ∧ inner.message = m
  | [], member => by cases member
  | message :: rest, member => by
    rw [nodesOf, List.mem_append] at member
    rw [nodesOf]
    rcases member with member | member
    · obtain ⟨inner, isNode, found⟩ := Message.nodes_nested isNested scope inEntry message member
      exact ⟨inner, List.mem_append_left _ isNode, found⟩
    · obtain ⟨inner, isNode, found⟩ := nodesOf_nested isNested scope inEntry rest member
      exact ⟨inner, List.mem_append_right _ isNode, found⟩

end

mutual

theorem Message.nodes_declared {file : File} (scope : List String) (inEntry : Bool) :
    ∀ message : Message, file.Declares (scope ++ [message.name]) (.message message) →
      ∀ n ∈ message.nodes scope inEntry, file.Declares n.path (.message n.message)
  | ⟨name, fields, oneofs, messages, enums, isMapEntry⟩, declared, n, member => by
    rw [Message.nodes, List.mem_append, List.mem_singleton] at member
    rcases member with member | rfl
    · exact nodesOf_declared _ _ messages (fun m isNested => declared.nested isNested) n member
    · exact declared

theorem nodesOf_declared {file : File} (scope : List String) (inEntry : Bool) :
    ∀ messages : List Message,
      (∀ m ∈ messages, file.Declares (scope ++ [m.name]) (.message m)) →
      ∀ n ∈ nodesOf scope inEntry messages, file.Declares n.path (.message n.message)
  | [], _, n, member => by cases member
  | message :: rest, declared, n, member => by
    rw [nodesOf, List.mem_append] at member
    rcases member with member | member
    · exact message.nodes_declared scope inEntry (declared message List.mem_cons_self) n member
    · exact nodesOf_declared scope inEntry rest
        (fun m isMember => declared m (List.mem_cons_of_mem _ isMember)) n member

end

theorem File.node_declared {file : File} {n : Node} (isNode : n ∈ file.nodes) :
    file.Declares n.path (.message n.message) :=
  nodesOf_declared [] false file.messages (fun _ isMessage => .message isMessage) n isNode

theorem File.declares_message_iff {file : File} {path : List String} {m : Message} :
    file.Declares path (.message m) ↔ ∃ n ∈ file.nodes, n.path = path ∧ n.message = m := by
  constructor
  · intro declared
    generalize isMessage : Declaration.message m = d at declared
    induction declared generalizing m with
    | message member =>
      cases isMessage
      exact ⟨_, mem_nodesOf member, rfl, rfl⟩
    | nested _ isNested ih =>
      cases isMessage
      obtain ⟨n, isNode, rfl, rfl⟩ := ih rfl
      obtain ⟨inner, isInner, atPath, rfl⟩ := nodesOf_nested isNested _ _ _ isNode
      exact ⟨inner, isInner, by rw [Node.path, atPath], rfl⟩
    | enum | nestedEnum => cases isMessage
  · rintro ⟨n, isNode, rfl, rfl⟩
    exact file.node_declared isNode

theorem File.declares_enum_iff {file : File} {path : List String} :
    file.Declares path .enum ↔ (∃ n ∈ file.nodes, ∃ e ∈ n.message.enums, path = n.path ++ [e.name]) ∨
      ∃ e ∈ file.enums, path = [e.name] := by
  constructor
  · intro declared
    cases declared with
    | enum member => exact .inr ⟨_, member, rfl⟩
    | nestedEnum outer member =>
      obtain ⟨n, isNode, rfl, rfl⟩ := File.declares_message_iff.mp outer
      exact .inl ⟨n, isNode, _, member, rfl⟩
  · rintro (⟨n, isNode, e, member, rfl⟩ | ⟨e, member, rfl⟩)
    · exact (file.node_declared isNode).nestedEnum member
    · exact .enum member

/-- The symbols of a file are its declarations, each with the reference to it. -/
theorem File.mem_symbols_iff {file : File} {s : Symbol} :
    s ∈ fileSymbols file ↔ ∃ path d, file.Declares path d ∧ s = ⟨refAt file path, d⟩ := by
  rw [File.mem_symbols]
  constructor
  · rintro (⟨n, isNode, rfl | ⟨e, member, rfl⟩⟩ | ⟨e, member, rfl⟩)
    · exact ⟨n.path, _, file.node_declared isNode, rfl⟩
    · exact ⟨_, _, (file.node_declared isNode).nestedEnum member, rfl⟩
    · exact ⟨_, _, .enum member, rfl⟩
  · rintro ⟨path, d, declared, rfl⟩
    cases d with
    | message m =>
      obtain ⟨n, isNode, rfl, rfl⟩ := File.declares_message_iff.mp declared
      exact .inl ⟨n, isNode, .inl rfl⟩
    | enum =>
      rcases File.declares_enum_iff.mp declared with ⟨n, isNode, e, member, rfl⟩ | ⟨e, member, rfl⟩
      · exact .inl ⟨n, isNode, .inr ⟨e, member, rfl⟩⟩
      · exact .inr ⟨e, member, rfl⟩

end ProtoBindings.Descriptor
