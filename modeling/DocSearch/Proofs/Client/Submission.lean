/-
# What reaches the service when documents change

Adding or deleting documents sends posts and nothing else, and their bodies say, one after the
other and once each, what is to be done with every document.  `Delivers` is that statement about a
list of requests; it is about bodies as the service gets them, so it goes through the reader of
JSON and not through the actions that the client had in hand.

The requests and their order do not depend on the replies (`SendsInOrder`): neither a batch that is
refused nor a connection that fails keeps a later batch from being sent.  What does is a reply with
counts for which the total has no room.  The program stops there, and the changes of later batches
are lost (`changes_delivered_stops`).

Main statement: `changes_delivered`.
-/
import DocSearch.Proofs.Client.Counts
import DocSearch.Proofs.Document.Batches

namespace DocSearch

/-! ## 1. Delivery -/

/-- **The requests deliver the actions** to an address: each posts a body that is read as one or
more of them, within the ceiling unless it is a single one, and none is left out, repeated or
moved. -/
inductive Delivers (address : String) (ceiling : Nat) : List Request → List Action → Prop where
  | none : Delivers address ceiling [] []
  | post {body : String} {batch : List Action} {requests : List Request} {actions : List Action}
      (read : batchOfBody body = some batch) (nonempty : batch ≠ [])
      (fits : body.utf8ByteSize ≤ ceiling ∨ batch.length = 1)
      (others : Delivers address ceiling requests actions) :
      Delivers address ceiling (.post address body :: requests) (batch ++ actions)

/-- What requests deliver is in their bodies. -/
theorem Delivers.unique {address : String} {ceiling : Nat} {requests : List Request}
    {actions actions' : List Action} (h : Delivers address ceiling requests actions)
    (h' : Delivers address ceiling requests actions') : actions = actions' := by
  induction h generalizing actions' with
  | none =>
    cases h'
    rfl
  | post read _ _ _ ih =>
    cases h' with
    | post read' _ _ others' => rw [Option.some.inj (read.symm.trans read'), ih others']

namespace Client

open BatchResult (Outcomes HasRoom)

/-- Batches that fit deliver their actions. -/
theorem delivers_flatten (st : Settings) {batches : List (List Action)}
    (hfits : ∀ batch ∈ batches, batch ≠ [] ∧ Fits st.maxBatchBytes.toNat batch)
    (hexact : ∀ batch ∈ batches, ∀ a ∈ batch, a.HasExactFields) :
    Delivers st.documentAddress st.maxBatchBytes.toNat (batches.map (batchRequest st))
      batches.flatten := by
  induction batches with
  | nil => exact .none
  | cons batch batches ih =>
    obtain ⟨hne, hfit⟩ := hfits batch List.mem_cons_self
    have hread := batchOfBody_batchText (hexact batch List.mem_cons_self)
    rw [List.map_cons, List.flatten_cons]
    refine .post hread hne hfit (ih ?_ ?_)
    · exact fun b hb => hfits b (List.mem_cons_of_mem _ hb)
    · exact fun b hb => hexact b (List.mem_cons_of_mem _ hb)

/-- The requests of a submission deliver its actions. -/
theorem delivers_requestsOf (st : Settings) {actions : List Action}
    (hexact : ∀ a ∈ actions, a.HasExactFields) :
    Delivers st.documentAddress st.maxBatchBytes.toNat (requestsOf st actions) actions := by
  have hfits : ∀ batch ∈ batches st.maxBatchBytes.toNat actions,
      batch ≠ [] ∧ Fits st.maxBatchBytes.toNat batch :=
    fun batch hb => ⟨ne_nil_of_mem_batches hb, fits_of_mem_batches hb⟩
  have hparts : ∀ batch ∈ batches st.maxBatchBytes.toNat actions, ∀ a ∈ batch,
      a.HasExactFields := by
    intro batch hb a ha
    have hmem := List.mem_flatten_of_mem hb ha
    rw [flatten_batches] at hmem
    exact hexact a hmem
  have hdelivers := delivers_flatten st hfits hparts
  rwa [flatten_batches] at hdelivers

/-- The run sends the requests in their order.  It leaves some out only where what the replies so
far come to has counts without room. -/
structure SendsInOrder (answer : List Request → Reply) (requests : List Request)
    (run : Exchange.Outcome (Option BatchResult)) : Prop where
  inOrder : run.requests <+: requests
  all : ∃ results, Outcomes (Exchange.replies answer run.requests) results ∧
    (HasRoom results → run.requests = requests)

theorem sendsInOrder_submit (answer : List Request → Reply) (st : Settings)
    (actions : List Action) :
    SendsInOrder answer (requestsOf st actions) (Exchange.run answer (submit st actions)) := by
  obtain ⟨later, hsplit, hresult, -⟩ := run_submit answer st actions
  refine ⟨⟨later, hsplit.symm⟩, _, outcomes_map _, fun hroom => ?_⟩
  obtain ⟨r, hr⟩ := exists_total hroom
  exact run_submit_requests (hresult.trans hr)

/-! ## 2. Changes of documents -/

/-- **Every change is delivered exactly once and in order**, as long as the counts of the replies
have room.  Adding documents sends, for each of them, its identifier, the version, the language of
the settings and its fields; deleting sends the identifiers and the version. -/
theorem changes_delivered (st : Settings) (version : Int64) :
    (∀ (s : Schema) (documents : List (Document s)), ∃ requests : List Request,
      (∀ answer, SendsInOrder answer requests
        (Exchange.run answer (addAll st version documents))) ∧
      Delivers st.documentAddress st.maxBatchBytes.toNat requests
        (documents.map fun d => ⟨.add, d.id, version, some st.lang, some d.fieldsJson⟩) ∧
      (requests = [] ↔ documents = [])) ∧
    (∀ ids : List String, ∃ requests : List Request,
      (∀ answer, SendsInOrder answer requests
        (Exchange.run answer (deleteAll st version ids))) ∧
      Delivers st.documentAddress st.maxBatchBytes.toNat requests
        (ids.map fun id => ⟨.delete, id, version, none, none⟩) ∧
      (requests = [] ↔ ids = [])) := by
  constructor
  · intro s documents
    have hexact : ∀ a ∈ documents.map (Action.add st.lang version), a.HasExactFields := by
      intro a ha
      obtain ⟨d, -, rfl⟩ := List.mem_map.mp ha
      exact Action.hasExactFields_add st.lang version d
    refine ⟨_, fun answer => sendsInOrder_submit answer st _, delivers_requestsOf st hexact, ?_⟩
    rw [requestsOf_eq_nil_iff, List.map_eq_nil_iff]
  · intro ids
    have hexact : ∀ a ∈ ids.map (Action.delete version), a.HasExactFields := by
      intro a ha
      obtain ⟨id, -, rfl⟩ := List.mem_map.mp ha
      exact Action.hasExactFields_delete version id
    refine ⟨_, fun answer => sendsInOrder_submit answer st _, delivers_requestsOf st hexact, ?_⟩
    rw [requestsOf_eq_nil_iff, List.map_eq_nil_iff]

/-- Nothing is sent behind the second batch where the counts of the first two have no room. -/
theorem run_submit_of_merge_eq_none {answer : List Request → Reply} {st : Settings}
    {actions first second : List Action} {later : List (List Action)}
    (h : batches st.maxBatchBytes.toNat actions = first :: second :: later)
    (hmerge : (readBatchReply (answer [batchRequest st first])).merge
      (readBatchReply (answer [batchRequest st first, batchRequest st second])) = none) :
    Exchange.run answer (submit st actions) =
      ⟨none, [batchRequest st first, batchRequest st second]⟩ := by
  rw [run_submit_cons answer h, runFrom_sendAll_cons, List.singleton_append, hmerge]
  rfl

/-- Of three batches, the first two report more deletions than the total has room for, and the third
is not sent. -/
theorem changes_delivered_stops :
    let run := Exchange.run
      (Exchange.replay (reports [deleted 18446744073709551615, deleted 1, deleted 1]) (.ok ""))
      (deleteAll oneByOne 1 ["a", "b", "c"])
    run.result = none ∧
      ¬ Delivers oneByOne.documentAddress oneByOne.maxBatchBytes.toNat run.requests
        (["a", "b", "c"].map fun id => ⟨.delete, id, 1, none, none⟩) := by
  have hbatches := batches_oneByOne (["a", "b", "c"].map (Action.delete 1))
  have hmerge : (deleted 18446744073709551615).merge (deleted 1) = none := by decide
  have hseen := congrArg (List.map readBatchReply)
    (replies_oneByOne (["a", "b", "c"].map (Action.delete 1))
      (reports [deleted 18446744073709551615, deleted 1, deleted 1]) (.ok "") rfl)
  rw [map_readBatchReply_reports, requestsOf, hbatches] at hseen
  simp only [List.map_cons, List.map_nil, Exchange.replies, Exchange.repliesFrom, List.nil_append,
    List.cons_append, List.cons.injEq] at hseen
  intro run
  have hrun : run = ⟨none, [batchRequest oneByOne [.delete 1 "a"],
      batchRequest oneByOne [.delete 1 "b"]]⟩ := by
    refine run_submit_of_merge_eq_none hbatches ?_
    rw [hseen.1, hseen.2.1]
    exact hmerge
  rw [hrun]
  refine ⟨rfl, fun h => ?_⟩
  have hexact : ∀ a ∈ [Action.delete 1 "a", Action.delete 1 "b"], a.HasExactFields := by
    simp [Action.hasExactFields_delete]
  have htwo := delivers_requestsOf oneByOne hexact
  rw [requestsOf, batches_oneByOne] at htwo
  cases h.unique htwo

end Client
end DocSearch
