/-
# The result of a submission

A submission posts its batches one after the other and merges what comes of them.  Each reply has
an outcome of its own (`Outcome`), a failure of the connection or an unreadable answer included,
so nothing is lost on the way to the total.

The status of a total depends on the order of the batches, and it is read together with the mark
for errors: it may only be replaced by a later one that is an error, and then it has to be `error`.
That holds because each outcome is marked exactly when its status is `error` (`IsMarked`), and
merging keeps this up.  What a total says about the batches so far is `SumsUp`; merging one more
outcome carries it on to one more batch (`SumsUp.merge`), and the loop carries it to all of them.

A count of a total is the sum over the batches, or there is no total.  Counts never get smaller on
the way, so merging stops nowhere unless the sums over all batches have no room (`HasRoom`), and the
batches behind the one where it stops are not sent.

Merging is associative whatever the marks, statuses and counts are, so batches may be totalled in
groups (`total_groups`).

Main statements: `merge_assoc`, `SumsUp.merge`, `total_eq_none_iff`, `total_groups`,
`submit_sumsUp`.
-/
import DocSearch.Client
import DocSearch.Proofs.Json.RoundTrip

namespace DocSearch

/-! ## 1. Merging -/

namespace BatchResult

/-- The sum of a count over results, which no width limits. -/
def sumOf (count : BatchResult → UInt64) : List BatchResult → Nat
  | [] => 0
  | result :: results => (count result).toNat + sumOf count results

theorem sumOf_append (count : BatchResult → UInt64) (results later : List BatchResult) :
    sumOf count (results ++ later) = sumOf count results + sumOf count later := by
  induction results with
  | nil => rw [List.nil_append, sumOf, Nat.zero_add]
  | cons result results ih => rw [List.cons_append, sumOf, sumOf, ih, Nat.add_assoc]

/-- There is room for the sums of both counts. -/
structure HasRoom (results : List BatchResult) : Prop where
  adds : sumOf adds results < UInt64.size
  deletes : sumOf deletes results < UInt64.size

theorem HasRoom.of_append {results later : List BatchResult} (h : HasRoom (results ++ later)) :
    HasRoom results := by
  obtain ⟨hadds, hdeletes⟩ := h
  rw [sumOf_append] at hadds hdeletes
  exact ⟨Nat.lt_of_le_of_lt (Nat.le_add_right _ _) hadds,
    Nat.lt_of_le_of_lt (Nat.le_add_right _ _) hdeletes⟩

/-- Merging fails for no other reason than its counts. -/
theorem exists_merges {r later : BatchResult}
    (hadds : r.adds.toNat + later.adds.toNat < UInt64.size)
    (hdeletes : r.deletes.toNat + later.deletes.toNat < UInt64.size) :
    ∃ t, Merges r later t :=
  ⟨⟨r.isError || later.isError,
      if r.status.isEmpty || later.isError then later.status else r.status,
      r.errors ++ later.errors, .ofNat (r.adds.toNat + later.adds.toNat),
      .ofNat (r.deletes.toNat + later.deletes.toNat)⟩,
    rfl, rfl, rfl, UInt64.toNat_ofNat_of_lt' hadds, UInt64.toNat_ofNat_of_lt' hdeletes⟩

section Associativity

variable {a b c ab bc t : BatchResult}

/-- Of three results, the status is found in either order. -/
theorem Merges.status_assoc (hab : Merges a b ab) (hbc : Merges b c bc) :
    (if ab.status.isEmpty || c.isError then c.status else ab.status) =
      if a.status.isEmpty || bc.isError then bc.status else a.status := by
  rw [hab.status, hbc.isError, hbc.status]
  by_cases hc : c.isError = true
  · simp [hc]
  · by_cases hb : b.isError = true
    · simp [hb, hc]
    · -- Without a later error, the first status that is not empty stays.
      by_cases ha : a.status = ""
      · simp [ha]
      · simp [ha, hb, hc]

theorem Merges.assoc_iff (hab : Merges a b ab) (hbc : Merges b c bc) :
    Merges ab c t ↔ Merges a bc t := by
  have hstatus := hab.status_assoc hbc
  have herror : (ab.isError || c.isError) = (a.isError || bc.isError) := by
    rw [hab.isError, hbc.isError, Bool.or_assoc]
  have herrors : ab.errors ++ c.errors = a.errors ++ bc.errors := by
    rw [hab.errors, hbc.errors, List.append_assoc]
  have hadds : ab.adds.toNat + c.adds.toNat = a.adds.toNat + bc.adds.toNat := by
    rw [hab.adds, hbc.adds, Nat.add_assoc]
  have hdeletes : ab.deletes.toNat + c.deletes.toNat = a.deletes.toNat + bc.deletes.toNat := by
    rw [hab.deletes, hbc.deletes, Nat.add_assoc]
  constructor
  · intro h
    exact ⟨h.isError.trans herror, h.status.trans hstatus, h.errors.trans herrors,
      h.adds.trans hadds, h.deletes.trans hdeletes⟩
  · intro h
    exact ⟨h.isError.trans herror.symm, h.status.trans hstatus.symm, h.errors.trans herrors.symm,
      h.adds.trans hadds.symm, h.deletes.trans hdeletes.symm⟩

/-- Where all three have room for their counts, the last two have. -/
theorem Merges.exists_right (hab : Merges a b ab) (ht : Merges ab c t) : ∃ bc, Merges b c bc := by
  have hadds : a.adds.toNat + b.adds.toNat + c.adds.toNat < UInt64.size := by
    rw [← hab.adds, ← ht.adds]
    exact t.adds.toNat_lt
  have hdeletes : a.deletes.toNat + b.deletes.toNat + c.deletes.toNat < UInt64.size := by
    rw [← hab.deletes, ← ht.deletes]
    exact t.deletes.toNat_lt
  exact exists_merges (by omega) (by omega)

/-- ...and so have the first two. -/
theorem Merges.exists_left (hbc : Merges b c bc) (ht : Merges a bc t) : ∃ ab, Merges a b ab := by
  have hadds : a.adds.toNat + (b.adds.toNat + c.adds.toNat) < UInt64.size := by
    rw [← hbc.adds, ← ht.adds]
    exact t.adds.toNat_lt
  have hdeletes : a.deletes.toNat + (b.deletes.toNat + c.deletes.toNat) < UInt64.size := by
    rw [← hbc.deletes, ← ht.deletes]
    exact t.deletes.toNat_lt
  exact exists_merges (by omega) (by omega)

/-- **Merging is associative**, also in where it stops. -/
theorem merge_assoc (a b c : BatchResult) :
    (a.merge b).bind (fun ab => ab.merge c) = (b.merge c).bind fun bc => a.merge bc := by
  ext t
  simp only [Option.bind_eq_some_iff, merge_eq_some_iff]
  constructor
  · rintro ⟨ab, hab, ht⟩
    obtain ⟨bc, hbc⟩ := hab.exists_right ht
    exact ⟨bc, hbc, (hab.assoc_iff hbc).mp ht⟩
  · rintro ⟨bc, hbc, ht⟩
    obtain ⟨ab, hab⟩ := hbc.exists_left ht
    exact ⟨ab, hab, (hab.assoc_iff hbc).mpr ht⟩

end Associativity

/-- The mark for errors says what the status says. -/
def IsMarked (r : BatchResult) : Prop := r.isError = true ↔ r.status = "error"

theorem isMarked_failed (text : String) : (failed text).IsMarked := by simp [IsMarked, failed]

theorem isMarked_marked (r : BatchResult) : r.marked.IsMarked := by simp [IsMarked, marked]

/-- A record with the right mark is the marked record. -/
theorem IsMarked.eq_marked {record r : BatchResult} (h : r.IsMarked)
    (same : r = { record with isError := r.isError }) : r = record.marked := by
  have hstatus : r.status = record.status := by rw [same]
  have hmark : r.isError = (record.status == "error") :=
    Bool.eq_iff_iff.mpr (h.trans (by rw [hstatus, beq_iff_eq]))
  rw [same, hmark, marked]

theorem IsMarked.merge {r later t : BatchResult} (h : r.IsMarked) (hlater : later.IsMarked)
    (ht : Merges r later t) : t.IsMarked := by
  unfold IsMarked at *
  rw [ht.isError, ht.status]
  cases he : later.isError with
  | true => simp [hlater.mp he]
  | false =>
    have hstatus : later.status ≠ "error" := fun e => by simp [hlater.mpr e] at he
    by_cases hempty : r.status = ""
    · have hmark : r.isError = false := by
        cases hr : r.isError with
        | false => rfl
        | true => simp [h.mp hr] at hempty
      simp [hempty, hmark, hstatus]
    · simp [hempty, h]

/-! ## 2. Outcomes of batches -/

/-- What a batch comes to, given the reply to it: what the answer says, marked exactly when its
status is `error`, or else the text of what went wrong. -/
inductive Outcome : Reply → BatchResult → Prop where
  | noReply (f : Failure) : Outcome (.error f) (failed f.message)
  | noJson {body : String} {fault : Json.Fault} (h : Json.read body = .error fault) :
      Outcome (.ok body) (failed (Failure.ofJson body fault).message)
  | noRecord {body : String} {j : Json} (h : Json.read body = .ok j)
      (hrecord : ofJson .json j = none) : Outcome (.ok body) (failed Failure.unexpectedJson.message)
  | answer {body : String} {j : Json} {record r : BatchResult} (h : Json.read body = .ok j)
      (hrecord : ofJson .json j = some record)
      (same : r = { record with isError := r.isError }) (mark : r.IsMarked) : Outcome (.ok body) r

theorem Outcome.isMarked {reply : Reply} {r : BatchResult} (h : Outcome reply r) : r.IsMarked := by
  cases h with
  | noReply f => exact isMarked_failed _
  | noJson h => exact isMarked_failed _
  | noRecord h hrecord => exact isMarked_failed _
  | answer h hrecord same mark => exact mark

/-- What batches come to, one by one, given the replies to them. -/
inductive Outcomes : List Reply → List BatchResult → Prop where
  | none : Outcomes [] []
  | next {reply : Reply} {r : BatchResult} {replies : List Reply} {results : List BatchResult}
      (h : Outcome reply r) (others : Outcomes replies results) :
      Outcomes (reply :: replies) (r :: results)

theorem Outcomes.isMarked {replies : List Reply} {results : List BatchResult}
    (h : Outcomes replies results) : ∀ result ∈ results, result.IsMarked := by
  induction h with
  | none => simp
  | next hnext _ ih => exact List.forall_mem_cons.mpr ⟨hnext.isMarked, ih⟩

/-! ## 3. Totals -/

/-- The counts are the sums over the results. -/
structure CountsUp (results : List BatchResult) (r : BatchResult) : Prop where
  adds : r.adds.toNat = sumOf BatchResult.adds results
  deletes : r.deletes.toNat = sumOf BatchResult.deletes results

/-- The result sums up those of batches. -/
structure SumsUp (results : List BatchResult) (r : BatchResult) : Prop
    extends CountsUp results r where
  isError : r.isError = true ↔ ∃ result ∈ results, result.isError = true
  isMarked : r.IsMarked
  /-- Where no batch failed, the first status that is not empty stands for all. -/
  status : (∀ result ∈ results, result.isError = false) →
    r.status = ((results.map BatchResult.status).find? (· != "")).getD ""
  errors : r.errors = (results.map BatchResult.errors).flatten

theorem CountsUp.hasRoom {results : List BatchResult} {r : BatchResult} (h : CountsUp results r) :
    HasRoom results :=
  ⟨h.adds ▸ r.adds.toNat_lt, h.deletes ▸ r.deletes.toNat_lt⟩

theorem countsUp_singleton (r : BatchResult) : CountsUp [r] r := ⟨rfl, rfl⟩

theorem sumsUp_singleton {r : BatchResult} (h : r.IsMarked) : SumsUp [r] r where
  toCountsUp := countsUp_singleton r
  isError := by simp
  isMarked := h
  status _ := by by_cases hempty : r.status = "" <;> simp [hempty]
  errors := by simp

theorem CountsUp.merge {results : List BatchResult} {r later t : BatchResult}
    (h : CountsUp results r) (ht : Merges r later t) : CountsUp (results ++ [later]) t where
  adds := by rw [ht.adds, h.adds, sumOf_append, sumOf, sumOf, Nat.add_zero]
  deletes := by rw [ht.deletes, h.deletes, sumOf_append, sumOf, sumOf, Nat.add_zero]

/-- **One more batch.** -/
theorem SumsUp.merge {results : List BatchResult} {r later t : BatchResult} (h : SumsUp results r)
    (hlater : later.IsMarked) (ht : Merges r later t) : SumsUp (results ++ [later]) t where
  toCountsUp := h.toCountsUp.merge ht
  isError := by
    simp only [ht.isError, Bool.or_eq_true, h.isError, List.mem_append, List.mem_singleton]
    grind
  isMarked := h.isMarked.merge hlater ht
  status hnone := by
    have hr := h.status fun result hresult => hnone result (List.mem_append_left _ hresult)
    have he : later.isError = false := hnone later (by simp)
    simp only [ht.status, he, Bool.or_false, List.map_append, List.find?_append, hr]
    cases hfind : (results.map BatchResult.status).find? (· != "") with
    | none => by_cases hempty : later.status = "" <;> simp [hempty]
    | some status =>
      have hstatus : status ≠ "" := by simpa using List.find?_some hfind
      simp [hstatus]
  errors := by simp [ht.errors, h.errors]

/-- What merging one more batch carries on holds of the total. -/
theorem foldlM_merge_induction {P : List BatchResult → BatchResult → Prop}
    {later : List BatchResult}
    (step : ∀ next ∈ later, ∀ {results r t}, P results r → Merges r next t →
      P (results ++ [next]) t)
    {results : List BatchResult} {r t : BatchResult} (h : P results r)
    (ht : later.foldlM BatchResult.merge r = some t) : P (results ++ later) t := by
  induction later generalizing results r with
  | nil =>
    cases ht
    rwa [List.append_nil]
  | cons next later ih =>
    obtain ⟨merged, hmerged, ht⟩ := Option.bind_eq_some_iff.mp ht
    have hnext := step next List.mem_cons_self h (merge_eq_some_iff.mp hmerged)
    have hall := ih (fun n hn => step n (List.mem_cons_of_mem _ hn)) hnext ht
    rwa [List.append_assoc] at hall

/-- Merging stops nowhere as long as there is room for the sums over all batches. -/
theorem CountsUp.exists_foldlM {results later : List BatchResult} {r : BatchResult}
    (h : CountsUp results r) (hroom : HasRoom (results ++ later)) :
    ∃ t, later.foldlM BatchResult.merge r = some t := by
  induction later generalizing results r with
  | nil => exact ⟨r, rfl⟩
  | cons next later ih =>
    have hsplit : results ++ next :: later = (results ++ [next]) ++ later := by simp
    rw [hsplit] at hroom
    obtain ⟨hadds, hdeletes⟩ := hroom.of_append
    rw [sumOf_append, ← h.adds] at hadds
    rw [sumOf_append, ← h.deletes] at hdeletes
    obtain ⟨merged, hmerged⟩ := exists_merges hadds hdeletes
    obtain ⟨t, ht⟩ := ih (h.merge hmerged) hroom
    refine ⟨t, ?_⟩
    rw [List.foldlM_cons, merge_eq_some_iff.mpr hmerged]
    exact ht

end BatchResult

open BatchResult (Outcome Outcomes HasRoom CountsUp SumsUp)

namespace Client

/-- The results of all batches in one, if there is room for the counts. -/
def total : List BatchResult → Option BatchResult
  | [] => some nothingSent
  | result :: results => results.foldlM BatchResult.merge result

theorem countsUp_total {results : List BatchResult} {r : BatchResult} (h : total results = some r) :
    CountsUp results r := by
  cases results with
  | nil =>
    cases h
    exact ⟨rfl, rfl⟩
  | cons first later =>
    exact BatchResult.foldlM_merge_induction (fun _ _ => CountsUp.merge)
      (BatchResult.countsUp_singleton first) h

theorem sumsUp_total {results : List BatchResult} {r : BatchResult} (hne : results ≠ [])
    (hmarked : ∀ result ∈ results, result.IsMarked) (h : total results = some r) :
    SumsUp results r := by
  cases results with
  | nil => exact absurd rfl hne
  | cons first later =>
    have hlater := fun next hnext => hmarked next (List.mem_cons_of_mem _ hnext)
    exact BatchResult.foldlM_merge_induction
      (fun next hnext _ _ _ hr ht => SumsUp.merge hr (hlater next hnext) ht)
      (BatchResult.sumsUp_singleton (hmarked first List.mem_cons_self)) h

theorem exists_total {results : List BatchResult} (h : HasRoom results) :
    ∃ r, total results = some r := by
  cases results with
  | nil => exact ⟨_, rfl⟩
  | cons first later => exact (BatchResult.countsUp_singleton first).exists_foldlM h

/-- **There is no total exactly when the counts have no room.** -/
theorem total_eq_none_iff {results : List BatchResult} :
    total results = none ↔ ¬ HasRoom results := by
  constructor
  · intro hnone hroom
    obtain ⟨r, hr⟩ := exists_total hroom
    exact Option.some_ne_none r (hr.symm.trans hnone)
  · intro hroom
    cases h : total results with
    | none => rfl
    | some r => exact absurd (countsUp_total h).hasRoom hroom

/-- Merging a total is merging what it is a total of. -/
theorem merge_total {results : List BatchResult} (hne : results ≠ []) (r : BatchResult) :
    (total results).bind (fun t => r.merge t) = results.foldlM BatchResult.merge r := by
  cases results with
  | nil => exact absurd rfl hne
  | cons first later =>
    clear hne
    induction later generalizing first with
    | nil =>
      rw [total, List.foldlM_cons]
      exact (Option.bind_fun_some _).symm
    | cons next later ih =>
      calc (total (first :: next :: later)).bind (fun t => r.merge t)
          = (first.merge next).bind fun merged =>
              (total (merged :: later)).bind fun t => r.merge t := Option.bind_assoc _ _ _
        _ = (first.merge next).bind fun merged =>
              (r.merge merged).bind (later.foldlM BatchResult.merge) :=
            congrArg (Option.bind _) (funext ih)
        _ = ((first.merge next).bind fun merged => r.merge merged).bind
              (later.foldlM BatchResult.merge) := (Option.bind_assoc _ _ _).symm
        _ = ((r.merge first).bind fun merged => merged.merge next).bind
              (later.foldlM BatchResult.merge) := by rw [BatchResult.merge_assoc]
        _ = (first :: next :: later).foldlM BatchResult.merge r := Option.bind_assoc _ _ _

/-- Groups of batches are merged like the batches themselves. -/
theorem foldlM_groups {groups : List (List BatchResult)} (hne : ∀ group ∈ groups, group ≠ [])
    (r : BatchResult) :
    (groups.mapM total).bind (fun totals => totals.foldlM BatchResult.merge r) =
      groups.flatten.foldlM BatchResult.merge r := by
  induction groups generalizing r with
  | nil => rfl
  | cons group groups ih =>
    have hrest := ih fun g hg => hne g (List.mem_cons_of_mem _ hg)
    rw [List.mapM_cons, List.flatten_cons, List.foldlM_append, ← funext hrest,
      ← merge_total (hne group List.mem_cons_self)]
    -- both sides merge the total of the group, and then the totals of the others
    simp only [Option.bind_eq_bind, Option.bind_assoc, Option.pure_def, Option.bind_some,
      List.foldlM_cons]
    exact congrArg _ (funext fun t => Option.bind_comm _ _)

/-- **Batches may be totalled in groups.** -/
theorem total_groups {groups : List (List BatchResult)} (hne : ∀ group ∈ groups, group ≠ []) :
    (groups.mapM total).bind total = total groups.flatten := by
  cases groups with
  | nil => rfl
  | cons group groups =>
    obtain ⟨first, later, rfl⟩ := List.exists_cons_of_ne_nil (hne group List.mem_cons_self)
    have hrest := foldlM_groups fun g hg => hne g (List.mem_cons_of_mem _ hg)
    calc (((first :: later) :: groups).mapM total).bind total
        = (total (first :: later)).bind fun t =>
            (groups.mapM total).bind fun totals => totals.foldlM BatchResult.merge t := by
          rw [List.mapM_cons]
          simp only [Option.bind_eq_bind, Option.bind_assoc, Option.pure_def, Option.bind_some]
          rfl
      _ = (total (first :: later)).bind fun t => groups.flatten.foldlM BatchResult.merge t := by
          rw [funext hrest]
      _ = total ((first :: later) :: groups).flatten := by
          rw [List.flatten_cons, List.cons_append, total, total, List.foldlM_append]
          rfl

/-! ## 4. Submissions -/

/-- The result of a batch is the one outcome of its reply. -/
theorem outcome_iff {reply : Reply} {r : BatchResult} :
    Outcome reply r ↔ r = readBatchReply reply := by
  constructor
  · intro h
    cases h with
    | noReply f => rfl
    | noJson h => simp only [readBatchReply, Except.bind, BatchResult.ofBody, h]
    | noRecord h hrecord => simp only [readBatchReply, Except.bind, BatchResult.ofBody, h, hrecord]
    | answer h hrecord same mark =>
      simp only [readBatchReply, Except.bind, BatchResult.ofBody, h, hrecord]
      exact mark.eq_marked same
  · rintro rfl
    cases reply with
    | error f => exact .noReply f
    | ok body =>
      cases hread : Json.read body with
      | error fault =>
        simp only [readBatchReply, Except.bind, BatchResult.ofBody, hread]
        exact .noJson hread
      | ok j =>
        cases hrecord : BatchResult.ofJson .json j with
        | none =>
          simp only [readBatchReply, Except.bind, BatchResult.ofBody, hread, hrecord]
          exact .noRecord hread hrecord
        | some record =>
          simp only [readBatchReply, Except.bind, BatchResult.ofBody, hread, hrecord]
          exact .answer hread hrecord rfl (BatchResult.isMarked_marked record)

theorem outcomes_map (replies : List Reply) : Outcomes replies (replies.map readBatchReply) := by
  induction replies with
  | nil => exact .none
  | cons reply replies ih => exact .next (outcome_iff.mpr rfl) ih

/-- The requests of a submission, in case it sends all of its batches. -/
def requestsOf (st : Settings) (actions : List Action) : List Request :=
  (batches st.maxBatchBytes.toNat actions).map (batchRequest st)

theorem requestsOf_eq_nil_iff {st : Settings} {actions : List Action} :
    requestsOf st actions = [] ↔ actions = [] := by
  rw [requestsOf, List.map_eq_nil_iff, batches_eq_nil_iff]

theorem runFrom_sendAll_cons (answer : List Request → Reply) (sent : List Request) (st : Settings)
    (r : BatchResult) (batch : List Action) (later : List (List Action)) :
    Exchange.runFrom answer sent (sendAll st r (batch :: later)) =
      Exchange.runFrom answer (sent ++ [batchRequest st batch])
        (match r.merge (readBatchReply (answer (sent ++ [batchRequest st batch]))) with
          | some next => sendAll st next later
          | none => .done none) := rfl

/-- The batches up to some place are sent, and what they came to is merged.  Others are left only
where that stopped. -/
theorem runFrom_sendAll (answer : List Request → Reply) (sent : List Request) (st : Settings)
    (r : BatchResult) (batches : List (List Action)) :
    ∃ now later, batches.map (batchRequest st) = now ++ later ∧
      (Exchange.runFrom answer sent (sendAll st r batches)).requests = sent ++ now ∧
      (Exchange.runFrom answer sent (sendAll st r batches)).result =
        ((Exchange.repliesFrom answer sent now).map readBatchReply).foldlM BatchResult.merge r ∧
      ((Exchange.runFrom answer sent (sendAll st r batches)).result = none ∨ later = []) := by
  induction batches generalizing sent r with
  | nil => exact ⟨[], [], rfl, (List.append_nil _).symm, rfl, .inr rfl⟩
  | cons batch batches ih =>
    rw [runFrom_sendAll_cons]
    cases hmerge : r.merge (readBatchReply (answer (sent ++ [batchRequest st batch]))) with
    | none =>
      refine ⟨[batchRequest st batch], batches.map (batchRequest st), rfl, rfl, ?_, .inl rfl⟩
      simp [Exchange.repliesFrom, hmerge, Exchange.runFrom]
    | some next =>
      obtain ⟨now, later, hsplit, hrequests, hresult, hstop⟩ :=
        ih (sent ++ [batchRequest st batch]) next
      refine ⟨batchRequest st batch :: now, later, ?_, ?_, ?_, hstop⟩
      · rw [List.map_cons, hsplit, List.cons_append]
      · rw [hrequests, List.append_assoc, List.singleton_append]
      · rw [hresult, Exchange.repliesFrom, List.map_cons, List.foldlM_cons, hmerge]
        rfl

theorem run_submit_cons (answer : List Request → Reply) {st : Settings}
    {actions batch : List Action} {later : List (List Action)}
    (h : batches st.maxBatchBytes.toNat actions = batch :: later) :
    Exchange.run answer (submit st actions) =
      Exchange.runFrom answer [batchRequest st batch]
        (sendAll st (readBatchReply (answer [batchRequest st batch])) later) := by
  rw [submit, h]
  rfl

/-- **A submission sends its batches in order**, and its result is the total of what the replies to
them come to.  Batches are left out only where there is none. -/
theorem run_submit (answer : List Request → Reply) (st : Settings) (actions : List Action) :
    ∃ later, requestsOf st actions = (Exchange.run answer (submit st actions)).requests ++ later ∧
      (Exchange.run answer (submit st actions)).result =
        total ((Exchange.replies answer
          (Exchange.run answer (submit st actions)).requests).map readBatchReply) ∧
      ((Exchange.run answer (submit st actions)).result = none ∨ later = []) := by
  cases hbatches : batches st.maxBatchBytes.toNat actions with
  | nil =>
    rw [requestsOf, submit, hbatches]
    exact ⟨[], rfl, rfl, .inr rfl⟩
  | cons batch batches =>
    obtain ⟨now, later, hsplit, hrequests, hresult, hstop⟩ := runFrom_sendAll answer
      [batchRequest st batch] st (readBatchReply (answer [batchRequest st batch])) batches
    rw [requestsOf, hbatches, run_submit_cons answer hbatches, hrequests, hresult]
    rw [hresult] at hstop
    refine ⟨later, ?_, rfl, hstop⟩
    rw [List.map_cons, hsplit, List.append_assoc, List.singleton_append]

theorem run_submit_requests {answer : List Request → Reply} {st : Settings} {actions : List Action}
    {r : BatchResult} (h : (Exchange.run answer (submit st actions)).result = some r) :
    (Exchange.run answer (submit st actions)).requests = requestsOf st actions := by
  obtain ⟨later, hsplit, -, hnone | rfl⟩ := run_submit answer st actions
  · exact absurd (h.symm.trans hnone) (Option.some_ne_none r)
  · rw [hsplit, List.append_nil]

/-- Nothing is sent for no action, and only then. -/
theorem run_submit_requests_eq_nil_iff {answer : List Request → Reply} {st : Settings}
    {actions : List Action} :
    (Exchange.run answer (submit st actions)).requests = [] ↔ actions = [] := by
  constructor
  · intro hnil
    obtain ⟨later, -, hresult, -⟩ := run_submit answer st actions
    rw [hnil] at hresult
    rw [← requestsOf_eq_nil_iff, ← run_submit_requests hresult, hnil]
  · rintro rfl
    rfl

/-- The result is the total of all batches, those left out included. -/
theorem run_submit_result (answer : List Request → Reply) (st : Settings)
    (actions : List Action) :
    (Exchange.run answer (submit st actions)).result =
      total ((Exchange.replies answer (requestsOf st actions)).map readBatchReply) := by
  obtain ⟨later, hsplit, hresult, hstop⟩ := run_submit answer st actions
  rw [hsplit, Exchange.replies, Exchange.repliesFrom_append, List.map_append]
  rcases hstop with hnone | rfl
  · rw [hnone, eq_comm, total_eq_none_iff]
    intro hroom
    rw [hresult, total_eq_none_iff] at hnone
    exact hnone hroom.of_append
  · rw [Exchange.repliesFrom, List.map_nil, List.append_nil]
    exact hresult

/-- **The result of a submission** is what its batches came to: each reply has its outcome, and the
result sums these up, in whatever groups they are totalled.  Without room for the counts there is no
result, and with room all batches are sent.  Merging is associative, and the blank result changes
nothing. -/
theorem submit_sumsUp (st : Settings) {actions : List Action} (hne : actions ≠ [])
    (answer : List Request → Reply) :
    let run := Exchange.run answer (submit st actions)
    (∃ results : List BatchResult, results ≠ [] ∧
      Outcomes (Exchange.replies answer run.requests) results ∧
      (HasRoom results → run.requests = requestsOf st actions ∧
        ∃ r, run.result = some r ∧ SumsUp results r) ∧
      (¬ HasRoom results → run.result = none) ∧
      ∀ groups : List (List BatchResult), (∀ group ∈ groups, group ≠ []) →
        groups.flatten = results → (groups.mapM total).bind total = run.result) ∧
    (∀ a b c : BatchResult,
      (a.merge b).bind (fun ab => ab.merge c) = (b.merge c).bind fun bc => a.merge bc) ∧
    ∀ r : BatchResult, BatchResult.blank.merge r = some r ∧ r.merge BatchResult.blank = some r := by
  intro run
  obtain ⟨-, -, hresult, -⟩ := run_submit answer st actions
  have hresults : (Exchange.replies answer run.requests).map readBatchReply ≠ [] := fun hnil =>
    hne (run_submit_requests_eq_nil_iff.mp
      (Exchange.replies_eq_nil_iff.mp (List.map_eq_nil_iff.mp hnil)))
  have houtcomes := outcomes_map (Exchange.replies answer run.requests)
  refine ⟨⟨_, hresults, houtcomes, fun hroom => ?_, fun hroom => ?_, fun groups hgroups hall => ?_⟩,
    BatchResult.merge_assoc, fun r => ⟨BatchResult.blank_merge r, BatchResult.merge_blank r⟩⟩
  · obtain ⟨r, hr⟩ := exists_total hroom
    exact ⟨run_submit_requests (hresult.trans hr), r, hresult.trans hr,
      sumsUp_total hresults houtcomes.isMarked hr⟩
  · exact hresult.trans (total_eq_none_iff.mpr hroom)
  · rw [total_groups hgroups, hall]
    exact hresult.symm

/-- Settings that give each action a batch of its own. -/
def oneByOne : Settings := { Settings.standard with maxBatchBytes := 1 }

/-- An answer to a batch. -/
def accepted : Json := .obj [("status", .str "success"), ("adds", .int 3)]

/-- The second of two batches is lost, and the first counts all the same. -/
theorem submit_sumsUp_lost :
    ∃ r, (Exchange.run
        (Exchange.replay [.ok accepted.compact, .error ⟨.http, "timed out"⟩] (.ok ""))
        (submit oneByOne [.delete 1 "a", .delete 2 "b"])).result = some r ∧
      r.status = "error" ∧ r.errors = ["HTTP request failed: timed out"] ∧ r.adds.toNat = 3 := by
  have hread : Json.read accepted.compact = .ok accepted := by
    refine Json.readWithin_compact ?_ (by decide)
    exact .obj (by simp) (by simpa using ⟨.str "success", .int (by decide) (by decide)⟩)
  have hrecord : BatchResult.ofJson .json accepted = some ⟨false, "success", [], 3, 0⟩ := by decide
  have hfirst : readBatchReply (.ok accepted.compact) = ⟨false, "success", [], 3, 0⟩ := by
    simp [readBatchReply, Except.bind, BatchResult.ofBody, hread, hrecord, BatchResult.marked]
  have hbatches : batches oneByOne.maxBatchBytes.toNat [.delete 1 "a", .delete 2 "b"] =
      [[.delete 1 "a"], [.delete 2 "b"]] := by
    have hceiling : oneByOne.maxBatchBytes.toNat = 1 := rfl
    simp only [hceiling, batches, batchesFrom, List.isEmpty_nil, List.isEmpty_cons, if_true,
      Bool.false_eq_true, if_false]
    rw [if_pos (by omega)]
  have hresult : (Exchange.run
      (Exchange.replay [.ok accepted.compact, .error ⟨.http, "timed out"⟩] (.ok ""))
      (submit oneByOne [.delete 1 "a", .delete 2 "b"])).result =
        total [⟨false, "success", [], 3, 0⟩, .failed "HTTP request failed: timed out"] := by
    rw [run_submit_result, requestsOf, hbatches, ← hfirst]
    rfl
  have hne : [Action.delete 1 "a", Action.delete 2 "b"] ≠ [] := by simp
  obtain ⟨⟨results, -, houtcomes, hsums, -⟩, -⟩ := submit_sumsUp oneByOne hne
    (Exchange.replay [.ok accepted.compact, .error ⟨.http, "timed out"⟩] (.ok ""))
  rw [run_submit_requests hresult, requestsOf, hbatches] at houtcomes
  have hresults : results =
      [⟨false, "success", [], 3, 0⟩, .failed "HTTP request failed: timed out"] := by
    cases houtcomes with
    | next h₁ hrest =>
      cases hrest with
      | next h₂ hnone =>
        cases hnone
        have h₁ : Outcome (.ok accepted.compact) _ := h₁
        have h₂ : Outcome (.error ⟨.http, "timed out"⟩) _ := h₂
        rw [outcome_iff.mp h₁, outcome_iff.mp h₂, hfirst]
        rfl
  subst hresults
  obtain ⟨-, r, hr, hsum⟩ := hsums ⟨by decide, by decide⟩
  refine ⟨r, hr, hsum.isMarked.mp (hsum.isError.mpr ?_), hsum.errors, hsum.adds⟩
  simp [BatchResult.failed]

end Client
end DocSearch
