/-
# Batching makes as few batches as possible

A list of actions can be cut into batches in many ways.  The one that `batches` takes fills every
batch as far as the ceiling allows before it opens the next one, and no way of cutting makes do
with fewer batches.

The argument follows the loop and any other cut side by side, action by action.  At each place
one of two things holds: the batch at hand is contained in the run at hand of the other cut, or
the other cut has opened more runs already (its `lead`).  In the first case, when the loop has to
close its batch, the text of the run would pass the ceiling as well, because a text does not get
shorter by further actions (`size_batchText_le_of_sublist`); so the cut opens a new run at the
latest together with the loop.  Single actions beyond the ceiling need no care of their own: the
ceiling is only ever asked about batches of two actions or more.

Main statement: `batches_fewest`.
-/
import Mathlib.Data.List.Chain
import Mathlib.Data.List.Induction
import DocSearch.Proofs.Document.Batches

namespace DocSearch

/-! ## 1. Cuts -/

/-- The actions cut into consecutive runs, none of them empty, that may all be sent. -/
structure IsCut (ceiling : Nat) (actions : List Action) (runs : List (List Action)) : Prop where
  flatten : runs.flatten = actions
  ne_nil : ∀ run ∈ runs, run ≠ []
  fits : ∀ run ∈ runs, Fits ceiling run

/-- Whether a batch has no room for the action that the next batch begins with. -/
def IsFull (ceiling : Nat) (batch next : List Action) : Prop :=
  ∀ a ∈ next.head?, ceiling < (batchText (batch ++ [a])).utf8ByteSize

/-! ## 2. Further actions make a text longer -/

/-- What actions take up in a text: each has one byte besides its own, a comma or, for the last
one, a bracket. -/
def room : List Action → Nat
  | [] => 0
  | a :: actions => a.size + 1 + room actions

theorem room_concat (actions : List Action) (a : Action) :
    room (actions ++ [a]) = room actions + (a.size + 1) := by
  induction actions with
  | nil => simp [room]
  | cons b actions ih =>
    rw [List.cons_append, room, room, ih]
    omega

theorem room_le_of_sublist {batch run : List Action} (h : batch.Sublist run) :
    room batch ≤ room run := by
  induction h with
  | slnil => exact Nat.le_refl _
  | cons a _ ih => exact Nat.le_trans ih (Nat.le_add_left _ _)
  | cons_cons a _ ih => exact Nat.add_le_add_left ih _

theorem size_batchText {batch : List Action} (h : batch ≠ []) :
    (batchText batch).utf8ByteSize = 1 + room batch := by
  induction batch using List.reverseRecOn with
  | nil => exact absurd rfl h
  | append_singleton batch a ih =>
    rw [room_concat]
    by_cases hnil : batch = []
    · subst hnil
      rw [List.nil_append, size_batchText_singleton, room]
      omega
    · rw [size_batchText_concat hnil, ih hnil]
      omega

/-- A batch has no longer text than one that contains it. -/
theorem size_batchText_le_of_sublist {batch run : List Action} (hne : batch ≠ [])
    (h : batch.Sublist run) :
    (batchText batch).utf8ByteSize ≤ (batchText run).utf8ByteSize := by
  have hrun : run ≠ [] := fun e => hne (List.eq_nil_of_sublist_nil (e ▸ h))
  rw [size_batchText hne, size_batchText hrun]
  exact Nat.add_le_add_left (room_le_of_sublist h) 1

/-- A run of two actions or more may be sent only within the ceiling. -/
theorem Fits.size_le {ceiling : Nat} {run more : List Action} (h : Fits ceiling (run ++ more))
    (hrun : run ≠ []) (hmore : more ≠ []) :
    (batchText (run ++ more)).utf8ByteSize ≤ ceiling := by
  rcases h with hsize | hone
  · exact hsize
  · have hpos := List.length_pos_iff.mpr hrun
    have hpos' := List.length_pos_iff.mpr hmore
    rw [List.length_append] at hone
    omega

/-! ## 3. A cut as a walk -/

/-- A cut under way.  The run at hand holds `run` so far, and `left` further runs are opened until
the actions are used up; each action goes on with the run at hand or opens another one. -/
inductive Underway (ceiling : Nat) : (run : List Action) → (left : Nat) → List Action → Prop
  | done {run : List Action} : Underway ceiling run 0 []
  | extend {run actions : List Action} {left : Nat} {a : Action}
      (hsize : (batchText (run ++ [a])).utf8ByteSize ≤ ceiling)
      (h : Underway ceiling (run ++ [a]) left actions) : Underway ceiling run left (a :: actions)
  | cut {run actions : List Action} {left : Nat} {a : Action}
      (h : Underway ceiling [a] left actions) : Underway ceiling run (left + 1) (a :: actions)

/-- The rest of a run is walked through action by action: what fits as a whole fits so far. -/
theorem Underway.of_append {ceiling left : Nat} {run more rest : List Action}
    (hfits : more ≠ [] → (batchText (run ++ more)).utf8ByteSize ≤ ceiling)
    (h : Underway ceiling (run ++ more) left rest) : Underway ceiling run left (more ++ rest) := by
  induction more generalizing run with
  | nil => simpa using h
  | cons a more ih =>
    have hassoc : run ++ a :: more = (run ++ [a]) ++ more := by simp
    have hall : (batchText ((run ++ [a]) ++ more)).utf8ByteSize ≤ ceiling :=
      hassoc ▸ hfits (by simp)
    have hpart : (run ++ [a]).Sublist ((run ++ [a]) ++ more) := List.sublist_append_left _ _
    refine .extend ?_ (ih (fun _ => hall) (hassoc ▸ h))
    exact Nat.le_trans (size_batchText_le_of_sublist (by simp) hpart) hall

/-- Every cut is a walk that opens one run after the other. -/
theorem underway_of_runs {ceiling : Nat} {a : Action} {more : List Action}
    {runs : List (List Action)} (hne : ∀ run ∈ (a :: more) :: runs, run ≠ [])
    (hfits : ∀ run ∈ (a :: more) :: runs, Fits ceiling run) :
    Underway ceiling [a] runs.length (more ++ runs.flatten) := by
  have hrun : Fits ceiling ([a] ++ more) := hfits (a :: more) List.mem_cons_self
  refine .of_append (fun hmore => hrun.size_le (by simp) hmore) ?_
  induction runs generalizing a more with
  | nil => exact .done
  | cons next runs ih =>
    have hne' : ∀ run ∈ next :: runs, run ≠ [] := fun r hr => hne r (List.mem_cons_of_mem _ hr)
    have hfits' : ∀ run ∈ next :: runs, Fits ceiling run :=
      fun r hr => hfits r (List.mem_cons_of_mem _ hr)
    obtain ⟨b, more', rfl⟩ := List.exists_cons_of_ne_nil (hne' next List.mem_cons_self)
    have hnext : Fits ceiling ([b] ++ more') := hfits' (b :: more') List.mem_cons_self
    rw [List.flatten_cons, List.length_cons, List.cons_append]
    exact .cut (.of_append (fun hmore => hnext.size_le (by simp) hmore) (ih hne' hfits' hnext))

/-! ## 4. The loop stays ahead -/

section Loop

variable {ceiling bytes : Nat} {batch actions : List Action} {a : Action}

/-- One step: an action that would pass the ceiling closes the batch at hand. -/
theorem batchesFrom_over (hne : batch ≠ []) (hover : ceiling < bytes + (a.size + 1)) :
    batchesFrom ceiling batch bytes (a :: actions) =
      batch :: batchesFrom ceiling [a] (2 + a.size) actions := by
  rw [batchesFrom, if_neg (by simpa using hne), if_pos hover]

/-- One step: any other action joins the batch at hand. -/
theorem batchesFrom_within (hne : batch ≠ []) (hle : bytes + (a.size + 1) ≤ ceiling) :
    batchesFrom ceiling batch bytes (a :: actions) =
      batchesFrom ceiling (batch ++ [a]) (bytes + (a.size + 1)) actions := by
  rw [batchesFrom, if_neg (by simpa using hne), if_neg (by omega)]

/-- **The loop makes no more batches than the walk**, counted from here on, if the batch at hand
is part of the run at hand, and else no more than `lead` besides. -/
theorem length_batchesFrom_le {run : List Action} {left lead : Nat}
    (hfill : Filling ceiling batch bytes) (hne : batch ≠ [])
    (hahead : batch.Sublist run ∨ 1 ≤ lead) (hwalk : Underway ceiling run left actions) :
    (batchesFrom ceiling batch bytes actions).length ≤ lead + (left + 1) := by
  induction hwalk generalizing batch bytes lead with
  | done =>
    rw [batchesFrom, if_neg (by simpa using hne), List.length_singleton]
    omega
  | @extend run actions left a hsize h ih =>
    rcases Nat.lt_or_ge ceiling (bytes + (a.size + 1)) with hover | hle
    · -- the loop closes its batch where the run goes on, so it cannot be part of the run
      have hlead : 1 ≤ lead := by
        refine hahead.resolve_left fun hsub => ?_
        have hlonger := size_batchText_le_of_sublist (by simp) (hsub.append_right [a])
        rw [size_batchText_concat hne, ← hfill.counted hne] at hlonger
        omega
      have hnext : (batchesFrom ceiling [a] (2 + a.size) actions).length ≤
          (lead - 1) + (left + 1) :=
        ih (filling_singleton ceiling a) (by simp) (Or.inl (List.sublist_append_right run [a]))
      rw [batchesFrom_over hne hover, List.length_cons]
      omega
    · rw [batchesFrom_within hne hle]
      exact ih (hfill.concat hne hle) (by simp) (hahead.imp_left fun hsub => hsub.append_right [a])
  | @cut run actions left a h ih =>
    rcases Nat.lt_or_ge ceiling (bytes + (a.size + 1)) with hover | hle
    · have hnext : (batchesFrom ceiling [a] (2 + a.size) actions).length ≤ 0 + (left + 1) :=
        ih (filling_singleton ceiling a) (by simp) (Or.inl (List.Sublist.refl [a]))
      rw [batchesFrom_over hne hover, List.length_cons]
      omega
    · -- the walk opens a run where the loop goes on with its batch
      have hnext : (batchesFrom ceiling (batch ++ [a]) (bytes + (a.size + 1)) actions).length ≤
          (lead + 1) + (left + 1) :=
        ih (hfill.concat hne hle) (by simp) (Or.inr (Nat.le_add_left 1 lead))
      rw [batchesFrom_within hne hle]
      omega

/-- The first batch begins with the batch at hand. -/
theorem head_batchesFrom (hne : batch ≠ []) :
    ∃ next others, batchesFrom ceiling batch bytes actions = (batch ++ next) :: others := by
  induction actions generalizing batch bytes with
  | nil => exact ⟨[], [], by rw [batchesFrom, if_neg (by simpa using hne), List.append_nil]⟩
  | cons a actions ih =>
    rcases Nat.lt_or_ge ceiling (bytes + (a.size + 1)) with hover | hle
    · exact ⟨[], _, by rw [batchesFrom_over hne hover, List.append_nil]⟩
    · obtain ⟨next, others, h⟩ : ∃ next others,
          batchesFrom ceiling (batch ++ [a]) (bytes + (a.size + 1)) actions =
            (batch ++ [a] ++ next) :: others :=
        ih (by simp)
      exact ⟨a :: next, others, by rw [batchesFrom_within hne hle, h]; simp⟩

/-- **Every batch that is closed is full.** -/
theorem isChain_batchesFrom (hfill : Filling ceiling batch bytes) (hne : batch ≠ []) :
    (batchesFrom ceiling batch bytes actions).IsChain (IsFull ceiling) := by
  induction actions generalizing batch bytes with
  | nil =>
    rw [batchesFrom, if_neg (by simpa using hne)]
    exact List.isChain_singleton batch
  | cons a actions ih =>
    rcases Nat.lt_or_ge ceiling (bytes + (a.size + 1)) with hover | hle
    · have hrest : (batchesFrom ceiling [a] (2 + a.size) actions).IsChain (IsFull ceiling) :=
        ih (filling_singleton ceiling a) (by simp)
      obtain ⟨next, others, hhead⟩ : ∃ next others,
          batchesFrom ceiling [a] (2 + a.size) actions = ([a] ++ next) :: others :=
        head_batchesFrom (by simp)
      rw [hhead] at hrest
      rw [batchesFrom_over hne hover, hhead]
      refine List.isChain_cons_cons.mpr ⟨fun b hb => ?_, hrest⟩
      obtain rfl : a = b := by simpa using hb
      rw [size_batchText_concat hne, ← hfill.counted hne]
      exact hover
    · rw [batchesFrom_within hne hle]
      exact ih (hfill.concat hne hle) (by simp)

end Loop

/-! ## 5. The fewest batches -/

theorem isCut_batches (ceiling : Nat) (actions : List Action) :
    IsCut ceiling actions (batches ceiling actions) where
  flatten := flatten_batches ceiling actions
  ne_nil := fun _ hrun => ne_nil_of_mem_batches hrun
  fits := fun _ hrun => fits_of_mem_batches hrun

theorem batches_cons (ceiling : Nat) (a : Action) (actions : List Action) :
    batches ceiling (a :: actions) = batchesFrom ceiling [a] (2 + a.size) actions := rfl

/-- **Batching makes as few batches as possible.**  The batches are a cut of the actions into runs
that may be sent, no such cut has fewer runs, and each batch but the last one is full: its text
with the first action of the next batch would pass the ceiling. -/
theorem batches_fewest (ceiling : Nat) (actions : List Action) :
    IsCut ceiling actions (batches ceiling actions) ∧
      (∀ runs, IsCut ceiling actions runs →
        (batches ceiling actions).length ≤ runs.length) ∧
      (batches ceiling actions).IsChain (IsFull ceiling) := by
  refine ⟨isCut_batches ceiling actions, fun runs hcut => ?_, ?_⟩
  · obtain ⟨rfl, hne, hfits⟩ := hcut
    cases runs with
    | nil => simp [batches, batchesFrom]
    | cons run runs =>
      obtain ⟨a, more, rfl⟩ := List.exists_cons_of_ne_nil (hne run List.mem_cons_self)
      have hbound : (batchesFrom ceiling [a] (2 + a.size) (more ++ runs.flatten)).length ≤
          0 + (runs.length + 1) :=
        length_batchesFrom_le (filling_singleton ceiling a) (by simp)
          (Or.inl (List.Sublist.refl [a])) (underway_of_runs hne hfits)
      rw [List.flatten_cons, List.cons_append, batches_cons, List.length_cons]
      omega
  · cases actions with
    | nil => exact List.isChain_nil
    | cons a actions =>
      rw [batches_cons]
      exact isChain_batchesFrom (filling_singleton ceiling a) (by simp)

end DocSearch
