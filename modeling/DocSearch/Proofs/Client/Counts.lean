/-
# The counts of a submission

How many documents a batch added and deleted is for the service to say, and a reply may give any
two counts of 64 bits.  The total of a submission has 64 bits for each of its counts as well, and
nothing keeps the sums over the batches within them: every row of results is what the replies to
some submission come to (`exists_outcomes`).  So a submission has no result for some replies, and
it has none exactly where the sums over its batches have no room.  With room, both counts are the
sums.

Main statements: `readBatchReply_compact`, `exists_outcomes`, `submit_countsUp`.
-/
import DocSearch.Proofs.Client.Totals
import DocSearch.Proofs.Json.Decode

namespace DocSearch

open BatchResult (Outcome Outcomes HasRoom CountsUp)

/-! ## 1. Results that a service may report -/

namespace BatchResult

/-- The members of the record of a result. -/
def members (r : BatchResult) : List (String × Json) :=
  [("status", .str r.status), ("errors", .arr (r.errors.map errorToJson)),
    ("adds", .int r.adds.toNat), ("deletes", .int r.deletes.toNat)]

theorem errorOfJson_errorToJson (d : Json.Dialect) (text : String) :
    errorOfJson d (errorToJson text) = some text := by
  have hgiven : (errorToJson text).fields? d ["message"] = some [("message", .str text)] :=
    Json.fields?_all d ["message"] [("message", .str text)] rfl (by decide)
  rw [errorOfJson, hgiven]
  rfl

theorem ofJson_toJson (d : Json.Dialect) (r : BatchResult) :
    ofJson d r.toJson = some { r with isError := false } := by
  have hgiven : r.toJson.fields? d ["status", "errors", "adds", "deletes"] = some r.members :=
    Json.fields?_all d ["status", "errors", "adds", "deletes"] r.members rfl (by decide)
  have herrors : Json.optional (Json.listOf? (errorOfJson d)) [] "errors" r.members
      = some r.errors := Json.listOf?_map fun text _ => errorOfJson_errorToJson d text
  have hadds : Json.optional Json.uint64? 0 "adds" r.members = some r.adds :=
    Json.uint64?_toNat r.adds
  have hdeletes : Json.optional Json.uint64? 0 "deletes" r.members = some r.deletes :=
    Json.uint64?_toNat r.deletes
  simp only [ofJson, hgiven, herrors, hadds, hdeletes, Option.bind_eq_bind, Option.bind_some]
  rfl

theorem isExact_errorToJson (text : String) :
    Json.IsExact (errorToJson text) ∧ (errorToJson text).nesting ≤ 1 :=
  ⟨Json.isExact_all ["message"] rfl (by decide) (by simpa using Json.IsExact.str text),
    Nat.le_of_eq rfl⟩

/-- The record of a result nests three levels at most. -/
theorem isExact_toJson (r : BatchResult) :
    Json.IsExact r.toJson ∧ r.toJson.nesting ≤ 3 := by
  have herrors : ∀ item ∈ r.errors.map errorToJson, Json.IsExact item ∧ item.nesting ≤ 1 := by
    intro item hitem
    obtain ⟨text, -, rfl⟩ := List.mem_map.mp hitem
    exact isExact_errorToJson text
  have hnesting : (Json.arr (r.errors.map errorToJson)).nesting ≤ 2 :=
    Nat.succ_le_succ (Json.itemsNesting_le_iff.mpr fun item hitem => (herrors item hitem).2)
  have hmembers : ∀ member ∈ r.members, Json.IsExact member.2 ∧ member.2.nesting ≤ 2 := by
    intro member hmember
    simp only [members, List.mem_cons, List.not_mem_nil, or_false] at hmember
    rcases hmember with rfl | rfl | rfl | rfl
    · exact (Json.isFlat_str _).within 2
    · exact ⟨.arr fun item hitem => (herrors item hitem).1, hnesting⟩
    · exact (Json.isFlat_uint64 _).within 2
    · exact (Json.isFlat_uint64 _).within 2
  refine ⟨Json.isExact_all ["status", "errors", "adds", "deletes"] rfl (by decide)
    fun member hmember => (hmembers member hmember).1, ?_⟩
  exact Nat.succ_le_succ (Json.membersNesting_le_iff.mpr fun member hmember =>
    (hmembers member hmember).2)

end BatchResult

namespace Client

/-- **Every result may be reported**, with the mark that its status calls for. -/
theorem readBatchReply_compact (r : BatchResult) :
    readBatchReply (.ok r.toJson.compact) = r.marked := by
  obtain ⟨hexact, hnesting⟩ := r.isExact_toJson
  have hread : Json.read r.toJson.compact = .ok r.toJson :=
    Json.readWithin_compact hexact (Nat.le_trans hnesting (by decide))
  simp only [readBatchReply, Except.bind, BatchResult.ofBody, hread, BatchResult.ofJson_toJson]
  rfl

/-- The answers that report results. -/
def reports (results : List BatchResult) : List Reply :=
  results.map fun r => .ok r.toJson.compact

theorem map_readBatchReply_reports (results : List BatchResult) :
    (reports results).map readBatchReply = results.map BatchResult.marked := by
  simp only [reports, List.map_map, Function.comp_def, readBatchReply_compact]

/-- A ceiling that is no higher than the brackets of a batch lets no action join another. -/
theorem batchesFrom_singleton {ceiling bytes : Nat} (hlow : ceiling ≤ 2) (hbytes : 2 ≤ bytes)
    (a : Action) (actions : List Action) :
    batchesFrom ceiling [a] bytes actions = [a] :: actions.map fun b => [b] := by
  induction actions generalizing a bytes with
  | nil => rfl
  | cons next actions ih =>
    have hover : bytes + (next.size + 1) > ceiling := by omega
    rw [batchesFrom, List.isEmpty_cons, if_neg Bool.false_ne_true, if_pos hover,
      ih (by omega), List.map_cons]

theorem batches_oneByOne (actions : List Action) :
    batches oneByOne.maxBatchBytes.toNat actions = actions.map fun a => [a] := by
  have hceiling : oneByOne.maxBatchBytes.toNat = 1 := rfl
  rw [hceiling]
  cases actions with
  | nil => rfl
  | cons a actions =>
    rw [batches, batchesFrom, List.isEmpty_nil, if_pos rfl,
      batchesFrom_singleton (by omega) (by omega), List.map_cons]

end Client

namespace Exchange

/-- Replies from a list are given in order. -/
theorem repliesFrom_replay {replies : List Reply} {last : Reply} {sent requests : List Request}
    (h : sent.length + requests.length = replies.length) :
    repliesFrom (replay replies last) sent requests = replies.drop sent.length := by
  induction requests generalizing sent with
  | nil =>
    rw [List.length_nil, Nat.add_zero] at h
    rw [repliesFrom, h, List.drop_length]
  | cons request requests ih =>
    rw [List.length_cons] at h
    have hlt : sent.length < replies.length := by omega
    have hsent : (sent ++ [request]).length = sent.length + 1 := List.length_append
    have hreply : replay replies last (sent ++ [request]) = replies[sent.length] := by
      rw [replay, hsent, Nat.add_sub_cancel, List.getElem?_eq_getElem hlt, Option.getD_some]
    rw [repliesFrom, hreply, ih (by omega), hsent, List.drop_eq_getElem_cons hlt]

end Exchange

namespace Client

/-- One reply for each action, where each has a batch of its own. -/
theorem replies_oneByOne (actions : List Action) (replies : List Reply) (last : Reply)
    (h : actions.length = replies.length) :
    Exchange.replies (Exchange.replay replies last) (requestsOf oneByOne actions) = replies := by
  rw [requestsOf, batches_oneByOne, Exchange.replies, Exchange.repliesFrom_replay]
  · rfl
  · simpa using h

/-- The outcomes are those that the answers report. -/
theorem outcomes_reports (actions : List Action) (results : List BatchResult) (last : Reply)
    (h : actions.length = results.length) :
    Outcomes (Exchange.replies (Exchange.replay (reports results) last)
      (requestsOf oneByOne actions)) (results.map BatchResult.marked) := by
  have hlength : actions.length = (reports results).length := by rw [h, reports, List.length_map]
  rw [replies_oneByOne actions (reports results) last hlength, ← map_readBatchReply_reports]
  exact outcomes_map _

/-- **Every row of results is what the replies to some submission come to.** -/
theorem exists_outcomes (results : List BatchResult) :
    ∃ (st : Settings) (actions : List Action) (answer : List Request → Reply),
      Outcomes (Exchange.replies answer (requestsOf st actions))
        (results.map BatchResult.marked) :=
  ⟨oneByOne, results.map fun _ => Action.delete 1 "a", Exchange.replay (reports results) (.ok ""),
    outcomes_reports _ results _ (List.length_map _)⟩

/-! ## 2. Submissions -/

/-- **The counts of a submission are the sums over its batches, or it has no result.**  It has none
exactly where there is no room for the sums.  Nothing bounds these: every row of results is what the
replies to some submission come to. -/
theorem submit_countsUp (st : Settings) (actions : List Action)
    (answer : List Request → Reply) :
    (∃ results : List BatchResult,
      Outcomes (Exchange.replies answer (requestsOf st actions)) results ∧
      ((Exchange.run answer (submit st actions)).result = none ↔ ¬ HasRoom results) ∧
      ∀ r, (Exchange.run answer (submit st actions)).result = some r → CountsUp results r) ∧
    ∀ results : List BatchResult,
      ∃ (st : Settings) (actions : List Action) (answer : List Request → Reply),
        Outcomes (Exchange.replies answer (requestsOf st actions))
          (results.map BatchResult.marked) := by
  refine ⟨⟨_, outcomes_map _, ?_, fun r => ?_⟩, exists_outcomes⟩
  · rw [run_submit_result]
    exact total_eq_none_iff
  · rw [run_submit_result]
    exact countsUp_total

/-- What a batch comes to that deleted documents. -/
def deleted (n : UInt64) : BatchResult :=
  { BatchResult.blank with status := "success", deletes := n }

/-- Of two batches that report the greatest count and one more, there is no total. -/
theorem submit_countsUp_stops :
    let results := [deleted 18446744073709551615, deleted 1]
    let actions := [Action.delete 1 "a", Action.delete 2 "b"]
    let answer := Exchange.replay (reports results) (.ok "")
    Outcomes (Exchange.replies answer (requestsOf oneByOne actions)) results ∧
      BatchResult.sumOf BatchResult.deletes results = 18446744073709551616 ∧
      (Exchange.run answer (submit oneByOne actions)).result = none := by
  intro results actions answer
  have hresults : (reports results).map readBatchReply = results :=
    map_readBatchReply_reports results
  refine ⟨outcomes_reports actions results (.ok "") rfl, by decide, ?_⟩
  rw [run_submit_result, replies_oneByOne actions (reports results) (.ok "") rfl, hresults]
  decide

end Client
end DocSearch
