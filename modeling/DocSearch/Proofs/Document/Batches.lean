/-
# The length and the content of batch texts

Batching adds up the lengths of actions as it goes, and the text of a batch is written only when
it is sent.  The two agree: while a batch is filled, the number that is carried along is the
length of the text that the batch would have (`size_batchText_concat`).  So a batch of more than
one action, whose last action was let in by a comparison with the ceiling, has a text within the
ceiling.

Main statements: `fits_of_mem_batches` (the ceiling), `batchOfBody_batchText` (the text of a batch
is read as its actions).
-/
import DocSearch.Proofs.Document.ActionJson

namespace DocSearch

/-! ## 1. The length of a batch -/

theorem batchText_eq (batch : List Action) :
    batchText batch = "[" ++ String.intercalate "," (batch.map Action.text) ++ "]" := by
  have htexts : Json.compactItems (batch.map Action.toJson) = batch.map Action.text := by
    rw [Json.compactItems_eq_map, List.map_map]
    rfl
  rw [batchText, Json.compact, htexts]

/-- A single action between the brackets. -/
theorem size_batchText_singleton (a : Action) :
    (batchText [a]).utf8ByteSize = 2 + a.size := by
  rw [batchText_eq]
  simp only [List.map_cons, List.map_nil, String.intercalate_singleton,
    String.utf8ByteSize_append, Action.size]
  have hopen : "[".utf8ByteSize = 1 := by decide
  have hclose : "]".utf8ByteSize = 1 := by decide
  omega

/-- A further action adds its text and a comma. -/
theorem size_batchText_concat {batch : List Action} (h : batch ≠ []) (a : Action) :
    (batchText (batch ++ [a])).utf8ByteSize = (batchText batch).utf8ByteSize + (a.size + 1) := by
  have htexts : batch.map Action.text ≠ [] := by simpa using h
  have hcomma : ",".utf8ByteSize = 1 := by decide
  rw [batchText_eq, batchText_eq, List.map_append,
    String.intercalate_append_of_ne_nil htexts (by simp)]
  simp only [List.map_cons, List.map_nil, String.intercalate_singleton,
    String.utf8ByteSize_append, Action.size, hcomma]
  omega

/-! ## 2. The ceiling -/

/-- Whether a batch may be sent: its text is within the ceiling, unless it is a single action. -/
def Fits (ceiling : Nat) (batch : List Action) : Prop :=
  (batchText batch).utf8ByteSize ≤ ceiling ∨ batch.length = 1

/-- What holds of the batch at hand and the number carried along with it. -/
structure Filling (ceiling : Nat) (batch : List Action) (bytes : Nat) : Prop where
  /-- The number is the length of the text. -/
  counted : batch ≠ [] → bytes = (batchText batch).utf8ByteSize
  fits : batch ≠ [] → Fits ceiling batch

theorem filling_nil (ceiling bytes : Nat) : Filling ceiling [] bytes :=
  ⟨fun h => absurd rfl h, fun h => absurd rfl h⟩

theorem filling_singleton (ceiling : Nat) (a : Action) : Filling ceiling [a] (2 + a.size) :=
  ⟨fun _ => (size_batchText_singleton a).symm, fun _ => Or.inr rfl⟩

/-- An action is let in when the text stays within the ceiling. -/
theorem Filling.concat {ceiling bytes : Nat} {batch : List Action} {a : Action}
    (h : Filling ceiling batch bytes) (hne : batch ≠ []) (hle : bytes + (a.size + 1) ≤ ceiling) :
    Filling ceiling (batch ++ [a]) (bytes + (a.size + 1)) := by
  have hsize : bytes + (a.size + 1) = (batchText (batch ++ [a])).utf8ByteSize := by
    rw [size_batchText_concat hne, ← h.counted hne]
  exact ⟨fun _ => hsize, fun _ => Or.inl (hsize ▸ hle)⟩

/-- Every batch that is closed fits, whatever follows. -/
theorem fits_of_mem_batchesFrom {ceiling bytes : Nat} {batch actions : List Action}
    (h : Filling ceiling batch bytes) :
    ∀ b ∈ batchesFrom ceiling batch bytes actions, Fits ceiling b := by
  fun_induction batchesFrom ceiling batch bytes actions with
  | case1 batch bytes hempty => simp
  | case2 batch bytes hne =>
    intro b hb
    obtain rfl := List.mem_singleton.mp hb
    exact h.fits fun e => hne (by simp [e])
  | case3 batch bytes a actions hempty ih => exact ih (filling_singleton ceiling a)
  | case4 batch bytes a actions hne hover ih =>
    -- the batch at hand is closed, and the action begins the next one
    intro b hb
    rcases List.mem_cons.mp hb with rfl | hb
    · exact h.fits fun e => hne (by simp [e])
    · exact ih (filling_singleton ceiling a) b hb
  | case5 batch bytes a actions hne hover ih =>
    exact ih (h.concat (fun e => hne (by simp [e])) (by omega))

/-- **Every batch keeps to the ceiling**, unless it is a single action. -/
theorem fits_of_mem_batches {ceiling : Nat} {actions batch : List Action}
    (h : batch ∈ batches ceiling actions) : Fits ceiling batch :=
  fits_of_mem_batchesFrom (filling_nil ceiling 2) batch h

/-! ## 3. Batches read back -/

/-- The actions in the body of a request. -/
def batchOfBody (body : String) : Option (List Action) :=
  (Json.parse body).bind (Json.listOf? Action.ofJson)

/-- **The text of a batch is read as its actions.** -/
theorem batchOfBody_batchText {batch : List Action} (h : ∀ a ∈ batch, a.HasExactFields) :
    batchOfBody (batchText batch) = some batch := by
  have hitems : ∀ item ∈ batch.map Action.toJson, Json.IsExact item ∧ item.nesting ≤ 3 := by
    intro item hitem
    obtain ⟨a, ha, rfl⟩ := List.mem_map.mp hitem
    exact Action.isExact_toJson (h a ha)
  have hexact : Json.IsExact (.arr (batch.map Action.toJson)) :=
    .arr fun item hitem => (hitems item hitem).1
  have hnesting : (Json.arr (batch.map Action.toJson)).nesting ≤ Json.nestingLimit := by
    have hle : Json.itemsNesting (batch.map Action.toJson) ≤ 3 :=
      Json.itemsNesting_le_iff.mpr fun item hitem => (hitems item hitem).2
    rw [Json.nesting, Json.nestingLimit]
    omega
  have hread : (batch.map Action.toJson).mapM Action.ofJson = some batch :=
    Text.mapM_map_eq_some fun a ha => Action.ofJson_toJson (h a ha)
  rw [batchOfBody, batchText, Json.parse_compact hexact hnesting, Option.bind_some,
    Json.listOf?, hread]

end DocSearch
