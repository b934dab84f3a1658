import Montage.Proofs.Timeline.Instant

/-!
Boundaries: sorted, without equal ones, and with every time at which a clip starts or ends.
-/

namespace Montage

/-- Times in ascending order, none of them a NaN. -/
structure Ascending (times : List Number) : Prop where
  placed : ∀ x ∈ times, x.isNaN = false
  sorted : times.Pairwise fun x y => x.lt y = true

theorem mem_insertTime_of_mem {t x : Number} {times : List Number}
    (hx : x ∈ times) : x ∈ insertTime t times := by
  induction times with
  | nil => simp at hx
  | cons s rest ih =>
      simp only [insertTime]
      split
      · exact hx
      · split
        · exact List.mem_cons_of_mem t hx
        · rcases List.mem_cons.1 hx with rfl | hx
          · exact List.mem_cons_self
          · exact List.mem_cons_of_mem s (ih hx)

theorem eq_or_mem_of_mem_insertTime {t x : Number} {times : List Number}
    (hx : x ∈ insertTime t times) : x = t ∨ x ∈ times := by
  induction times with
  | nil => simpa [insertTime] using hx
  | cons s rest ih =>
      simp only [insertTime] at hx
      split at hx
      · exact Or.inr hx
      · split at hx
        · simpa using hx
        · rcases List.mem_cons.1 hx with rfl | hx
          · exact Or.inr List.mem_cons_self
          · exact (ih hx).imp id (List.mem_cons_of_mem s)

/-- An inserted time is there afterwards, if only as an equal one. -/
theorem exists_place_mem_insertTime (t : Number) (times : List Number) :
    ∃ x ∈ insertTime t times, x.place? = t.place? := by
  induction times with
  | nil => exact ⟨t, by simp [insertTime], rfl⟩
  | cons s rest ih =>
      simp only [insertTime]
      split
      · next h =>
          obtain ⟨p, hs, hp⟩ := Number.exists_places_of_eq h
          exact ⟨s, List.mem_cons_self, by rw [hs, hp]⟩
      · split
        · exact ⟨t, List.mem_cons_self, rfl⟩
        · obtain ⟨x, hx, hplace⟩ := ih
          exact ⟨x, List.mem_cons_of_mem s hx, hplace⟩

theorem Ascending.insertTime {t : Number} {times : List Number}
    (h : Ascending times) (ht : t.isNaN = false) :
    Ascending (insertTime t times) := by
  refine ⟨?_, ?_⟩
  · intro x hx
    rcases eq_or_mem_of_mem_insertTime hx with rfl | hx
    · exact ht
    · exact h.placed x hx
  · obtain ⟨hplaced, hsorted⟩ := h
    induction times with
    | nil => simp [Montage.insertTime]
    | cons s rest ih =>
        rw [List.pairwise_cons] at hsorted
        obtain ⟨p, hp⟩ := Number.exists_place (hplaced s List.mem_cons_self)
        obtain ⟨q, hq⟩ := Number.exists_place ht
        simp only [Montage.insertTime]
        split
        · exact List.pairwise_cons.2 hsorted
        · next hne =>
            rw [Number.eq_iff hp hq] at hne
            split
            · next hlt =>
                refine List.pairwise_cons.2 ⟨?_, List.pairwise_cons.2 hsorted⟩
                intro x hx
                rcases List.mem_cons.1 hx with rfl | hx
                · exact hlt
                · obtain ⟨r, hr⟩ := Number.exists_place
                    (hplaced x (List.mem_cons_of_mem s hx))
                  have hsx := (Number.lt_iff hp hr).1 (hsorted.1 x hx)
                  exact (Number.lt_iff hq hr).2
                    (((Number.lt_iff hq hp).1 hlt).trans hsx)
            · next hnlt =>
                rw [Number.lt_iff hq hp, not_lt] at hnlt
                refine List.pairwise_cons.2 ⟨?_, ih ?_ hsorted.2⟩
                · intro x hx
                  rcases eq_or_mem_of_mem_insertTime hx with rfl | hx
                  · exact (Number.lt_iff hp hq).2 (lt_of_le_of_ne hnlt hne)
                  · exact hsorted.1 x hx
                · intro x hx
                  exact hplaced x (List.mem_cons_of_mem s hx)

/-- The start and the end of placed clips. -/
def times (placed : List Placed) : List Number :=
  placed.flatMap fun p => [p.clip.start, p.stop]

/-- The boundaries with the times of more clips. -/
def addTimes (bounds : List Number) (placed : List Placed) : List Number :=
  placed.foldl (fun bounds p =>
    insertTime p.stop (insertTime p.clip.start bounds)) bounds

theorem boundaries_eq_addTimes (placed : List Placed) :
    boundaries placed = addTimes [0] placed := rfl

theorem mem_addTimes_of_mem {x : Number} (placed : List Placed) :
    ∀ {bounds : List Number}, x ∈ bounds → x ∈ addTimes bounds placed := by
  induction placed with
  | nil => exact fun hx => hx
  | cons p rest ih =>
      exact fun hx => ih (mem_insertTime_of_mem (mem_insertTime_of_mem hx))

theorem mem_of_mem_addTimes {x : Number} {placed : List Placed}
    {bounds : List Number} (hx : x ∈ addTimes bounds placed) :
    x ∈ bounds ∨ x ∈ times placed := by
  induction placed generalizing bounds with
  | nil => exact Or.inl hx
  | cons p rest ih =>
      rcases ih hx with hx | hx
      · rcases eq_or_mem_of_mem_insertTime hx with rfl | hx
        · exact Or.inr (by simp [times])
        · rcases eq_or_mem_of_mem_insertTime hx with rfl | hx
          · exact Or.inr (by simp [times])
          · exact Or.inl hx
      · exact Or.inr (List.mem_append_right _ hx)

theorem Ascending.addTimes {bounds : List Number} {placed : List Placed}
    (h : Ascending bounds) (hplaced : ∀ x ∈ times placed, x.isNaN = false) :
    Ascending (addTimes bounds placed) := by
  induction placed generalizing bounds with
  | nil => exact h
  | cons p rest ih =>
      have hp := fun x hx => hplaced x (List.mem_append_left _ hx)
      refine ih ?_ fun x hx => hplaced x (List.mem_append_right _ hx)
      exact (h.insertTime (hp _ (by simp))).insertTime (hp _ (by simp))

theorem exists_place_mem_addTimes {bounds : List Number}
    {placed : List Placed} {y : Number} (hy : y ∈ times placed) :
    ∃ x ∈ addTimes bounds placed, x.place? = y.place? := by
  induction placed generalizing bounds with
  | nil => simp [times] at hy
  | cons p rest ih =>
      rcases List.mem_append.1 hy with hy | hy
      · -- the clip's own times go in first, and later ones push none out
        rcases List.mem_pair.1 hy with rfl | rfl
        · obtain ⟨x, hx, hplace⟩ := exists_place_mem_insertTime p.clip.start bounds
          exact ⟨x, mem_addTimes_of_mem rest (mem_insertTime_of_mem hx), hplace⟩
        · obtain ⟨x, hx, hplace⟩ :=
            exists_place_mem_insertTime p.stop (insertTime p.clip.start bounds)
          exact ⟨x, mem_addTimes_of_mem rest hx, hplace⟩
      · exact ih hy

/-- The boundaries are sorted. -/
theorem boundaries_ascending {placed : List Placed}
    (hplaced : ∀ x ∈ times placed, x.isNaN = false) :
    Ascending (boundaries placed) :=
  Ascending.addTimes ⟨by simp [Number.isNaN, OfNat.ofNat], by simp⟩ hplaced

end Montage
