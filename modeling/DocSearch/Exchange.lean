/-
# Exchanges with the service

An operation of the client is a tree: it is over, or it sends a request and goes on with the
reply.  Nothing is said about where replies come from; running an operation takes a function
that answers a request in the light of all requests so far, which covers every behaviour of the
service and of the connection to it.  Main statement: `run_bind`.
-/
import DocSearch.Failure

namespace DocSearch

/-- A request to the service. -/
inductive Request where
  | get (url : String)
  | post (url body : String)
deriving DecidableEq, Repr

/-- The reply to a request: the body of the answer, or why there is none. -/
abbrev Reply := Except Failure String

/-- An operation that may exchange requests and replies with the service. -/
inductive Exchange (α : Type) where
  | done (result : α)
  | ask (request : Request) (next : Reply → Exchange α)

namespace Exchange

/-- Goes on with the result of an operation. -/
def bind {α β : Type} : Exchange α → (α → Exchange β) → Exchange β
  | .done a, f => f a
  | .ask request next, f => .ask request fun reply => (next reply).bind f

instance : Monad Exchange where
  pure := .done
  bind := bind

/-- Sends a request and gives back the reply. -/
def send (request : Request) : Exchange Reply := .ask request .done

/-- The result of an operation and the requests sent for it, in order. -/
structure Outcome (α : Type) where
  result : α
  requests : List Request

/-- Runs an operation after the requests `sent`.  `answer` is given all requests so far, the one
to be answered last. -/
def runFrom {α : Type} (answer : List Request → Reply) (sent : List Request) :
    Exchange α → Outcome α
  | .done a => ⟨a, sent⟩
  | .ask request next =>
    runFrom answer (sent ++ [request]) (next (answer (sent ++ [request])))

/-- Runs an operation. -/
def run {α : Type} (answer : List Request → Reply) (e : Exchange α) : Outcome α :=
  runFrom answer [] e

/-- The replies to requests that are sent one after the other, after the requests `sent`. -/
def repliesFrom (answer : List Request → Reply) (sent : List Request) : List Request → List Reply
  | [] => []
  | request :: requests =>
    answer (sent ++ [request]) :: repliesFrom answer (sent ++ [request]) requests

/-- The replies to requests that are sent one after the other. -/
def replies (answer : List Request → Reply) (requests : List Request) : List Reply :=
  repliesFrom answer [] requests

/-- The answers that come from a list, one for each request, and `last` when it is used up. -/
def replay (replies : List Reply) (last : Reply) (sent : List Request) : Reply :=
  (replies[sent.length - 1]?).getD last

/-- Runs an operation with a sender in any monad. -/
def perform {m : Type → Type} [Monad m] {α : Type} (send : Request → m Reply) :
    Exchange α → m α
  | .done a => pure a
  | .ask request next => do
    let reply ← send request
    perform send (next reply)

theorem replies_eq_nil_iff {answer : List Request → Reply} {requests : List Request} :
    replies answer requests = [] ↔ requests = [] := by
  cases requests <;> simp [replies, repliesFrom]

theorem repliesFrom_append (answer : List Request → Reply) (sent requests later : List Request) :
    repliesFrom answer sent (requests ++ later) =
      repliesFrom answer sent requests ++ repliesFrom answer (sent ++ requests) later := by
  induction requests generalizing sent with
  | nil => rw [List.append_nil]; rfl
  | cons request requests ih =>
    rw [List.cons_append, repliesFrom, ih, repliesFrom, List.append_assoc]
    rfl

/-- Running two operations one after the other. -/
theorem runFrom_bind {α β : Type} (answer : List Request → Reply) (sent : List Request)
    (e : Exchange α) (f : α → Exchange β) :
    runFrom answer sent (e.bind f) =
      runFrom answer (runFrom answer sent e).requests (f (runFrom answer sent e).result) := by
  induction e generalizing sent with
  | done a => rfl
  | ask request next ih => exact ih _ _

theorem run_bind {α β : Type} (answer : List Request → Reply) (e : Exchange α)
    (f : α → Exchange β) :
    run answer (e.bind f) =
      runFrom answer (run answer e).requests (f (run answer e).result) :=
  runFrom_bind answer [] e f

end Exchange
end DocSearch
