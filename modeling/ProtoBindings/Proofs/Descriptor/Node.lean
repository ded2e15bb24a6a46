import ProtoBindings.Resolver.Symbol

namespace ProtoBindings.Descriptor

open Resolver (Symbol refAt enumSymbols)

/-- A message with the names of the messages around it. -/
structure Node where
  scope : List String
  /-- Whether one of the messages around it is a map entry. -/
  inEntry : Bool
  message : Message

mutual

def Message.nodes (scope : List String) (inEntry : Bool) : Message → List Node
  | ⟨name, fields, oneofs, messages, enums, isMapEntry⟩ =>
    nodesOf (scope ++ [name]) (inEntry || isMapEntry) messages ++
      [⟨scope, inEntry, ⟨name, fields, oneofs, messages, enums, isMapEntry⟩⟩]

def nodesOf (scope : List String) (inEntry : Bool) : List Message → List Node
  | [] => []
  | message :: rest => message.nodes scope inEntry ++ nodesOf scope inEntry rest

end

def File.nodes (file : File) : List Node := nodesOf [] false file.messages

namespace Node

def path (n : Node) : List String := n.scope ++ [n.message.name]

/-- A hidden message gets no class, and neither does what is declared in it. -/
def isHidden (n : Node) : Bool := n.inEntry || n.message.isMapEntry

def symbol (file : File) (n : Node) : Symbol := ⟨refAt file n.path, .message n.message⟩

def enumSymbol (file : File) (n : Node) (e : Enum) : Symbol := ⟨refAt file (n.path ++ [e.name]), .enum⟩

end Node

theorem mem_enumSymbols {file : File} {scope : List String} {enums : List Enum} {s : Symbol} :
    s ∈ enumSymbols file scope enums ↔ ∃ e ∈ enums, s = ⟨refAt file (scope ++ [e.name]), .enum⟩ := by
  simp [enumSymbols, eq_comm]

mutual

theorem Message.mem_symbols (file : File) (s : Symbol) (scope : List String) (inEntry : Bool) :
    ∀ message : Message, s ∈ Resolver.messageSymbols file scope message ↔
      ∃ n ∈ message.nodes scope inEntry,
        s = n.symbol file ∨ ∃ e ∈ n.message.enums, s = n.enumSymbol file e
  | ⟨name, fields, oneofs, messages, enums, isMapEntry⟩ => by
    have nested := mem_symbolsOf file s (scope ++ [name]) (inEntry || isMapEntry) messages
    simp only [Resolver.messageSymbols, Message.nodes, List.cons_append, List.mem_cons,
      List.mem_append, List.not_mem_nil, or_false, mem_enumSymbols, nested, or_and_right, exists_or,
      exists_eq_left, Node.symbol, Node.enumSymbol, Node.path]
    grind

theorem mem_symbolsOf (file : File) (s : Symbol) (scope : List String) (inEntry : Bool) :
    ∀ messages : List Message, s ∈ Resolver.messagesSymbols file scope messages ↔
      ∃ n ∈ nodesOf scope inEntry messages,
        s = n.symbol file ∨ ∃ e ∈ n.message.enums, s = n.enumSymbol file e
  | [] => by simp [Resolver.messagesSymbols, nodesOf]
  | message :: rest => by
    rw [Resolver.messagesSymbols, nodesOf, List.mem_append, message.mem_symbols file s scope inEntry,
      mem_symbolsOf file s scope inEntry rest]
    simp only [List.mem_append, or_and_right, exists_or]

end

mutual

theorem Message.nodes_in_entry (scope : List String) :
    ∀ message : Message, ∀ n ∈ message.nodes scope true, n.inEntry = true
  | ⟨name, fields, oneofs, messages, enums, isMapEntry⟩ => by
    intro n member
    rw [Message.nodes, Bool.true_or, List.mem_append, List.mem_singleton] at member
    rcases member with member | rfl
    · exact nodesOf_in_entry _ messages n member
    · rfl

theorem nodesOf_in_entry (scope : List String) :
    ∀ messages : List Message, ∀ n ∈ nodesOf scope true messages, n.inEntry = true
  | [] => by simp [nodesOf]
  | message :: rest => by
    intro n member
    rw [nodesOf, List.mem_append] at member
    rcases member with member | member
    · exact message.nodes_in_entry scope n member
    · exact nodesOf_in_entry scope rest n member

end

theorem Message.nodes_of_entry (scope : List String) {inEntry : Bool} {message : Message}
    (isEntry : message.isMapEntry = true) : ∀ n ∈ message.nodes scope inEntry, n.isHidden = true := by
  obtain ⟨name, fields, oneofs, messages, enums, isMapEntry⟩ := message
  cases isEntry
  intro n member
  rw [Message.nodes, Bool.or_true, List.mem_append, List.mem_singleton] at member
  rcases member with member | rfl
  · rw [Node.isHidden, nodesOf_in_entry _ messages n member, Bool.true_or]
  · exact Bool.or_true _

theorem File.mem_symbols {file : File} {s : Symbol} :
    s ∈ Resolver.fileSymbols file ↔
      (∃ n ∈ file.nodes, s = n.symbol file ∨ ∃ e ∈ n.message.enums, s = n.enumSymbol file e) ∨
      ∃ e ∈ file.enums, s = ⟨refAt file [e.name], .enum⟩ := by
  rw [Resolver.fileSymbols, List.mem_append, mem_enumSymbols, mem_symbolsOf file s [] false]
  rfl

theorem File.symbol_file {file : File} {s : Symbol} (member : s ∈ Resolver.fileSymbols file) :
    ∃ path, s.ref = refAt file path := by
  rcases File.mem_symbols.mp member with ⟨n, _, rfl | ⟨e, _, rfl⟩⟩ | ⟨e, _, rfl⟩
  · exact ⟨_, rfl⟩
  · exact ⟨_, rfl⟩
  · exact ⟨_, rfl⟩

end ProtoBindings.Descriptor
