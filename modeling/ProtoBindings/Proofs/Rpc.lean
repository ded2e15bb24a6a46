import Mathlib.Data.List.Basic
import ProtoBindings.Rpc.Metadata
import ProtoBindings.Rpc.Method
import ProtoBindings.Rpc.Stream

namespace ProtoBindings.Rpc

section Methods

theorem Shape.flags_ofFlags (clientStreaming serverStreaming : Bool) :
    (Shape.ofFlags clientStreaming serverStreaming).streamsRequests = clientStreaming ∧
      (Shape.ofFlags clientStreaming serverStreaming).streamsResponses = serverStreaming := by
  cases clientStreaming <;> cases serverStreaming <;> decide

theorem Shape.ofFlags_flags (s : Shape) : .ofFlags s.streamsRequests s.streamsResponses = s := by
  cases s <;> rfl

/-- The path of a method without slashes in its names is the path of no other one. -/
theorem MethodName.path_inj {m n : MethodName} (service : '/' ∉ m.service.toList)
    (name : '/' ∉ m.name.toList) : m.path = n.path ↔ m = n := by
  refine ⟨fun same => ?_, fun same => same ▸ rfl⟩
  have chars : m.service.toList ++ '/' :: m.name.toList = n.service.toList ++ '/' :: n.name.toList := by
    have whole := congrArg String.toList same
    simpa [MethodName.path] using whole
  obtain ⟨services, -, names⟩ := (List.append_cons_inj_of_notMem service name).mp chars
  obtain ⟨_, _⟩ := m
  obtain ⟨_, _⟩ := n
  exact congrArg₂ MethodName.mk (String.toList_inj.mp services) (String.toList_inj.mp names)

end Methods

namespace Stream

variable {α β ε : Type} {convert : α → Except ε β} {s : Stream α ε} {n : Nat}

/-- The answers to so many questions, and what is left of the stream. -/
def ask (convert : α → Except ε β) : Nat → Stream α ε → List (Answer β ε) × Stream α ε
  | 0, s => ([], s)
  | n + 1, s =>
    let (answer, later) := s.next convert
    let (answers, last) := ask convert n later
    (answer :: answers, last)

/-- What a source has to answer: values up to the first failure, its own or that of a conversion. -/
def outcomes (convert : α → Except ε β) : List (Supply α ε) → List (Answer β ε)
  | [] => []
  | .failure error :: _ => [.failed error]
  | .element value :: rest =>
    match convert value with
    | .ok result => .value result :: outcomes convert rest
    | .error error => [.failed error]

/-- The elements that are converted until the source has no more to answer. -/
def attempts (convert : α → Except ε β) : List (Supply α ε) → Nat
  | [] | .failure _ :: _ => 0
  | .element value :: rest =>
    match convert value with
    | .ok _ => attempts convert rest + 1
    | .error _ => 1

theorem next_closed (closed : s.isOpen = false) : s.next convert = (.stop, s) := by
  obtain ⟨supply, isOpen, converted⟩ := s
  cases closed
  rfl

theorem ask_closed (closed : s.isOpen = false) :
    ask convert n s = (List.replicate n .stop, s) := by
  induction n with
  | zero => rfl
  | succ n ih => simp only [ask, next_closed closed, ih, List.replicate_succ]

theorem ask_succ_of_last {answer : Answer β ε} {later : Stream α ε}
    (asked : s.next convert = (answer, later)) (closed : later.isOpen = false) :
    ask convert (n + 1) s = (answer :: List.replicate n .stop, later) := by
  simp only [ask, asked, ask_closed closed]

theorem take_stopping (answers : List (Answer β ε)) (n : Nat) :
    (answers ++ List.replicate (n + 1) Answer.stop).take n =
      (answers ++ List.replicate n Answer.stop).take n := by
  have enough : min (n - answers.length) (n + 1) = n - answers.length := by omega
  simp [List.take_append, List.take_replicate, enough]

theorem take_last (answer : Answer β ε) (n : Nat) :
    ([answer] ++ List.replicate (n + 1) Answer.stop).take (n + 1) =
      answer :: List.replicate n Answer.stop := by
  simp [List.take_replicate]

/-- However often it is asked, a stream answers what its source has for it and then stops. It converts one
    element for each answer at most, and none before it is asked. -/
theorem ask_open (isOpen : s.isOpen = true) :
    (ask convert n s).1 = (outcomes convert s.supply ++ List.replicate n Answer.stop).take n ∧
      (ask convert n s).2.converted = s.converted + min n (attempts convert s.supply) := by
  induction n generalizing s with
  | zero => simp [ask]
  | succ n ih =>
    obtain ⟨supply, _, converted⟩ := s
    cases isOpen
    cases supply with
    | nil =>
      rw [ask_succ_of_last rfl rfl]
      simp [outcomes, attempts, close, List.replicate_succ]
    | cons supplied rest =>
      cases supplied with
      | failure error =>
        rw [ask_succ_of_last rfl rfl, outcomes, take_last]
        exact ⟨rfl, (Nat.min_zero _).symm ▸ rfl⟩
      | element value =>
        cases result : convert value with
        | error error =>
          have asked : next convert ⟨.element value :: rest, true, converted⟩ =
              (.failed error, close ⟨rest, true, converted + 1⟩) := by
            simp only [next, result]
          rw [ask_succ_of_last asked rfl]
          simp only [outcomes, attempts, result, take_last, close, true_and]
          omega
        | ok v =>
          have later := ih (s := ⟨rest, true, converted + 1⟩) rfl
          simp only [ask, next, result, outcomes, attempts, List.cons_append, List.take_succ_cons,
            take_stopping]
          exact ⟨congrArg _ later.1, by rw [later.2]; simp only; omega⟩

/-- Once it has been closed a stream gives nothing and converts nothing. -/
theorem ask_close : ask convert n s.close = (List.replicate n .stop, s.close) := ask_closed rfl

end Stream

namespace CallContext

variable {c : CallContext} {index : Nat}

inductive Step
  | attach (metadata : Metadata)
  | reset (index : Nat)

/-- A failed reset changes nothing. -/
def step (c : CallContext) : Step → CallContext
  | .attach metadata => c.attach metadata
  | .reset index => (c.reset index).toOption.getD c

def run (c : CallContext) (steps : List Step) : CallContext := steps.foldl step c

theorem reset_token {token : Token} (found : c.tokens[index]? = some token) :
    c.reset index = if token.isUsed then .error .usedToken
      else .ok ⟨token.previous, c.tokens.set index { token with isUsed := true }⟩ := by
  rw [reset, found]

/-- A token stays as it is until it is used itself. -/
theorem step_token {token : Token} {step : Step} (found : c.tokens[index]? = some token)
    (other : step ≠ .reset index) : (c.step step).tokens[index]? = some token := by
  have isThere : index < c.tokens.length := (List.getElem?_eq_some_iff.mp found).1
  cases step with
  | attach metadata =>
    exact (List.getElem?_append_left isThere).trans found
  | reset used =>
    have apart : used ≠ index := fun same => other (same ▸ rfl)
    rw [CallContext.step]
    cases isUsed : c.tokens[used]? with
    | none =>
      rw [reset, isUsed]
      exact found
    | some spent =>
      rw [reset_token isUsed]
      split
      · exact found
      · exact (List.getElem?_set_ne apart).trans found

theorem run_token {token : Token} {steps : List Step} (found : c.tokens[index]? = some token)
    (others : .reset index ∉ steps) : (c.run steps).tokens[index]? = some token := by
  induction steps generalizing c with
  | nil => exact found
  | cons step steps ih =>
    rw [List.mem_cons, not_or] at others
    exact ih (step_token found (Ne.symm others.1)) others.2

/-- Whatever is attached and reset in between, the token of an attached call puts back what was current
    before the call, and does so once. -/
theorem reset_after_run (c : CallContext) (metadata : Metadata) {steps : List Step}
    (unused : .reset c.tokens.length ∉ steps) : ∃ restored,
      ((c.attach metadata).run steps).reset c.tokens.length = .ok restored ∧
        restored.current = c.current ∧ restored.reset c.tokens.length = .error .usedToken := by
  have given : (c.attach metadata).tokens[c.tokens.length]? = some { previous := c.current } := by
    simp [attach]
  have kept := run_token given unused
  have isThere := (List.getElem?_eq_some_iff.mp kept).1
  refine ⟨_, (reset_token kept).trans (if_neg Bool.false_ne_true), rfl, ?_⟩
  rw [reset_token (List.getElem?_set_self isThere), if_pos rfl]

end CallContext

end ProtoBindings.Rpc
