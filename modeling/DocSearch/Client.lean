/-
# The client

The operations on a search domain, as exchanges with the service.  Searches carry the conditions
of the settings besides their own.  Changes to documents are sent in batches; they never fail as
a whole: what went wrong with a batch is in the result, and later batches are sent all the same.
Only a count that has no room in the result stops a submission before its end.
-/
import DocSearch.Document.Action
import DocSearch.Exchange
import DocSearch.Reply.Batch
import DocSearch.Reply.Search
import DocSearch.Request.Search
import DocSearch.Settings

namespace DocSearch

/-! ## 1. Searching -/

namespace Settings

/-- The search with the conditions of the settings added. -/
def restrict (st : Settings) (q : Search) : Search := q.restrictedTo st.conditions

/-- The URL that a search requests. -/
def searchUrl (st : Settings) (q : Search) : String := (st.restrict q).url st.searchAddress

end Settings

namespace Client

variable {s : Schema}

/-- The result that the reply to a search holds. -/
def readReply (reply : Reply) : Except Failure (SearchResult s) :=
  reply.bind SearchResult.ofBody

/-- The result of a search, with a failure as its error. -/
def settleSearch : Except Failure (SearchResult s) → SearchResult s
  | .ok result => result
  | .error f => .failed ("An error occurred: " ++ f.message)

/-- The result of a search, with an error of the service as a failure. -/
def strictSearch (outcome : Except Failure (SearchResult s)) : Except Failure (SearchResult s) :=
  outcome.bind fun result =>
    match result.isError, result.error with
    | true, some text => .error ⟨.service, text⟩
    | true, none => .error ⟨.service, "unknown error"⟩
    | false, _ => .ok result

/-- Requests a search and reads the reply. -/
def fetch (st : Settings) (q : Search) : Exchange (Except Failure (SearchResult s)) := do
  let reply ← Exchange.send (.get (st.searchUrl q))
  return readReply reply

/-- Searches; what went wrong is in the result. -/
def search (st : Settings) (q : Search) : Exchange (SearchResult s) := do
  let outcome ← fetch st q
  return settleSearch outcome

/-- Searches, and fails when something went wrong. -/
def trySearch (st : Settings) (q : Search) : Exchange (Except Failure (SearchResult s)) := do
  let outcome ← fetch st q
  return strictSearch outcome

/-! ## 2. Changing documents -/

/-- The result of one batch. -/
def readBatchReply (reply : Reply) : BatchResult :=
  match reply.bind BatchResult.ofBody with
  | .ok result => result
  | .error f => .failed f.message

/-- The request that sends a batch. -/
def batchRequest (st : Settings) (batch : List Action) : Request :=
  .post st.documentAddress (batchText batch)

/-- Sends batches one after the other, each result merged into the one so far.  Without room for a
count, no later batch is sent. -/
def sendAll (st : Settings) (r : BatchResult) : List (List Action) → Exchange (Option BatchResult)
  | [] => return some r
  | batch :: batches => do
    let reply ← Exchange.send (batchRequest st batch)
    match r.merge (readBatchReply reply) with
    | some next => sendAll st next batches
    | none => return none

/-- The result without any batch. -/
def nothingSent : BatchResult := { BatchResult.blank with status := "success" }

/-- Sends actions in as many batches as the ceiling makes necessary.  There is no result where the
counts of the batches have no room in it. -/
def submit (st : Settings) (actions : List Action) : Exchange (Option BatchResult) :=
  match batches st.maxBatchBytes.toNat actions with
  | [] => return some nothingSent
  | batch :: batches => do
    let reply ← Exchange.send (batchRequest st batch)
    sendAll st (readBatchReply reply) batches

/-- Adds documents, or replaces them. -/
def addAll (st : Settings) (version : Int64) (documents : List (Document s)) :
    Exchange (Option BatchResult) :=
  submit st (documents.map (Action.add st.lang version))

/-- Adds a document, or replaces it. -/
def add (st : Settings) (version : Int64) (d : Document s) :
    Exchange (Option BatchResult) :=
  addAll st version [d]

/-- Deletes the documents with the identifiers. -/
def deleteAll (st : Settings) (version : Int64) (ids : List String) :
    Exchange (Option BatchResult) :=
  submit st (ids.map (Action.delete version))

/-- Deletes a document. -/
def delete (st : Settings) (version : Int64) (d : Document s) :
    Exchange (Option BatchResult) :=
  deleteAll st version [d.id]

end Client
end DocSearch
