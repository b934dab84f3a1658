import Montage.Proofs.Timeline.Source
import Montage.Timeline.Window

/-!
The source windows of a clip that is cut into slices.

At whole times nothing is rounded, and the window of a slice lies between the source times at its
two ends.  So the windows of consecutive slices meet: they lead through all that the clip plays of
its source, onward or, for a reversed clip, back.
-/

namespace Montage

/-- Each member of a list with the one after it. -/
def neighbours (cuts : List Int) : List (Int × Int) := cuts.zip cuts.tail

/-- The windows of the slices between neighbouring cuts, where `window` gives that of the slice
that begins at a time and lasts a duration. -/
def sliceWindows (window : Number → Number → Except Fault Window) (cuts : List Int) :
    Except Fault (List Window) :=
  (neighbours cuts).mapM fun slice => window (.int slice.1) (.int (slice.2 - slice.1))

/-- The window of a slice as it is without a bound for how far back in the source a reversed clip
can get. -/
def Window.unbounded (c : Clip) (start duration : Number) : Except Fault Window := do
  let speed := c.playSpeed
  let offset ← start.sub c.start
  let length ← duration.mul speed
  let first ←
    if c.reversed then
      let whole ← c.duration.mul speed
      c.trim.add (← whole.sub (← (← offset.add duration).mul speed))
    else c.trim.add (← offset.mul speed)
  return ⟨first, ← first.add length, speed⟩

/-- The window between two whole source times. -/
def Window.between (speed first last : Int) : Window := ⟨.int first, .int last, .int speed⟩

/-- The windows of some slices play a source from one time to another, or back. -/
structure PlaysThrough (reversed : Bool) (speed first last : Int) (cuts : List Int)
    (windows : List Window) : Prop where
  /-- Each window is as long as its slice, at the speed. -/
  lengths : List.Forall₂ (fun slice w => ∃ a, first ≤ a ∧ a + (slice.2 - slice.1) * speed ≤ last ∧
    w = Window.between speed a (a + (slice.2 - slice.1) * speed)) (neighbours cuts) windows
  onward : reversed = false → windows.head?.map Window.start = some (.int first) ∧
    windows.IsChain (fun w next => w.stop = next.start) ∧
    windows.getLast?.map Window.stop = some (.int last)
  back : reversed = true → windows.head?.map Window.stop = some (.int last) ∧
    windows.IsChain (fun w next => w.start = next.stop) ∧
    windows.getLast?.map Window.start = some (.int first)

section Neighbours

variable {p q : Int} {cuts : List Int}

theorem neighbours_cons (p q : Int) (cuts : List Int) :
    neighbours (p :: q :: cuts) = (p, q) :: neighbours (q :: cuts) := rfl

theorem neighbours_isChain (cuts : List Int) :
    (neighbours cuts).IsChain fun slice next => slice.2 = next.1 := by
  induction cuts with
  | nil => exact .nil
  | cons p cuts ih =>
      cases cuts with
      | nil => exact .nil
      | cons q cuts =>
          rw [neighbours_cons]
          apply ih.cons
          intro next hnext
          cases cuts with
          | nil => simp [neighbours] at hnext
          | cons r cuts =>
              rw [neighbours_cons, List.head?_cons, Option.mem_some] at hnext
              rw [← hnext]

theorem getLast?_neighbours (p q : Int) (cuts : List Int) :
    (neighbours (p :: q :: cuts)).getLast?.map Prod.snd = (p :: q :: cuts).getLast? := by
  induction cuts generalizing p q with
  | nil => rfl
  | cons r cuts ih =>
      rw [neighbours_cons, neighbours_cons, List.getLast?_cons_cons, ← neighbours_cons, ih,
        List.getLast?_cons_cons, List.getLast?_cons_cons, List.getLast?_cons_cons]

/-- Of ascending cuts, two neighbours lie between the first one and the last one. -/
theorem bounds_of_mem_neighbours {first last : Int} (hcuts : cuts.IsChain (· ≤ ·))
    (hfirst : cuts.head? = some first) (hlast : cuts.getLast? = some last)
    (h : (p, q) ∈ neighbours cuts) : first ≤ p ∧ p ≤ q ∧ q ≤ last := by
  induction cuts generalizing first with
  | nil => simp at hfirst
  | cons r cuts ih =>
      obtain rfl : r = first := Option.some.inj hfirst
      cases cuts with
      | nil => simp [neighbours] at h
      | cons s cuts =>
          have hrs : r ≤ s := hcuts.rel
          rw [List.getLast?_cons_cons] at hlast
          rw [neighbours_cons, List.mem_cons] at h
          rcases h with h | h
          · obtain ⟨rfl, rfl⟩ := Prod.mk.inj h
            have hpairwise := List.isChain_iff_pairwise.1 hcuts.tail
            have hmem : last ∈ q :: cuts := List.mem_of_getLast? hlast
            have hle : q ≤ last := by
              rcases List.mem_cons.1 hmem with rfl | hmem
              · exact le_rfl
              · exact List.rel_of_pairwise_cons hpairwise hmem
            exact ⟨le_rfl, hrs, hle⟩
          · obtain ⟨hsp, hpq, hql⟩ := ih hcuts.tail rfl hlast h
            exact ⟨hrs.trans hsp, hpq, hql⟩

end Neighbours

section Slices

variable {c : Clip} {start length trim speed : Int}

/-- The source time that a clip has reached at a whole time. -/
def Clip.reached (c : Clip) (start length trim speed : Int) (p : Int) : Int :=
  trim + (if c.reversed then length - (p - start) else p - start) * speed

/-- The window of a slice lies between the source times at the ends of the slice. -/
def Clip.windowAt (c : Clip) (start length trim speed : Int) (slice : Int × Int) : Window :=
  let reached := c.reached start length trim speed
  if c.reversed then Window.between speed (reached slice.2) (reached slice.1)
  else Window.between speed (reached slice.1) (reached slice.2)

theorem Clip.windowAt_onward (h : c.reversed = false) (slice : Int × Int) :
    c.windowAt start length trim speed slice =
      Window.between speed (trim + (slice.1 - start) * speed)
        (trim + (slice.2 - start) * speed) := by
  simp [windowAt, reached, h]

theorem Clip.windowAt_back (h : c.reversed = true) (slice : Int × Int) :
    c.windowAt start length trim speed slice =
      Window.between speed (trim + (length - (slice.2 - start)) * speed)
        (trim + (length - (slice.1 - start)) * speed) := by
  simp [windowAt, reached, h]

/-- The window of a slice that lies on its clip. -/
theorem Clip.windowAt_eq_between (hspeed : 1 ≤ speed) {p q : Int} (hp : start ≤ p)
    (hq : q ≤ start + length) :
    ∃ a, trim ≤ a ∧ a + (q - p) * speed ≤ trim + length * speed ∧
      c.windowAt start length trim speed (p, q) =
        Window.between speed a (a + (q - p) * speed) := by
  have hbefore : 0 ≤ (p - start) * speed := mul_nonneg (by omega) (by omega)
  have hafter : 0 ≤ (length - (q - start)) * speed := mul_nonneg (by omega) (by omega)
  have hsum : (p - start) * speed + (q - p) * speed + (length - (q - start)) * speed =
      length * speed := by ring
  cases hback : c.reversed with
  | false =>
      have hstop : trim + (q - start) * speed =
          trim + (p - start) * speed + (q - p) * speed := by ring
      exact ⟨trim + (p - start) * speed, by omega, by omega,
        by rw [windowAt_onward hback, hstop]⟩
  | true =>
      have hstop : trim + (length - (p - start)) * speed =
          trim + (length - (q - start)) * speed + (q - p) * speed := by ring
      exact ⟨trim + (length - (q - start)) * speed, by omega, by omega,
        by rw [windowAt_back hback, hstop]⟩

namespace Clip.Counts

variable (h : c.Counts start length trim speed)
include h

theorem unbounded_eq (p q : Int) : Window.unbounded c (.int p) (.int (q - p)) =
    .ok (c.windowAt start length trim speed (p, q)) := by
  have hlast : ∀ a b n : Int, a + n = b → (Except.ok ⟨.int a, .int (a + n), .int speed⟩ :
      Except Fault Window) = .ok (Window.between speed a b) := by
    rintro a b n rfl
    rfl
  rw [Window.unbounded, h.start_eq, h.duration_eq, h.trim_eq, h.speed_eq, windowAt, reached,
    reached]
  cases c.reversed
  · apply hlast
    simp only [Bool.false_eq_true, ↓reduceIte]
    ring
  · have hback : length * speed - (p - start + (q - p)) * speed =
        (length - (q - start)) * speed := by ring
    simp only [↓reduceIte]
    rw [← hback]
    apply hlast
    ring

/-- A slice that ends no later than its clip begins no earlier in the source than this does. -/
theorem ofSlice_eq_unbounded (hspeed : 1 ≤ speed) {p q : Int} (hq : q ≤ start + length) :
    Window.ofSlice c (.int p) (.int (q - p)) = Window.unbounded c (.int p) (.int (q - p)) := by
  have hback : 0 ≤ length * speed - (p - start + (q - p)) * speed := by
    rw [← sub_mul]
    exact mul_nonneg (by omega) (by omega)
  have hmax : Number.max 0 (.int (length * speed - (p - start + (q - p)) * speed)) =
      .int (length * speed - (p - start + (q - p)) * speed) := by
    rw [Number.max]
    split
    · rfl
    · next hlt =>
        have hzero := mt Number.zero_lt_int.2 hlt
        rw [le_antisymm (not_lt.1 hzero) hback]
        rfl
  rw [Window.ofSlice, Window.unbounded, h.start_eq, h.duration_eq, h.trim_eq, h.speed_eq]
  cases c.reversed
  · rfl
  · simp only [Number.sub, Number.mul, Number.add, bind, Except.bind, pure, Except.pure, hmax,
      ↓reduceIte]

end Clip.Counts

theorem sliceWindows_eq {window : Number → Number → Except Fault Window} {cuts : List Int}
    {f : Int × Int → Window}
    (h : ∀ p q, (p, q) ∈ neighbours cuts → window (.int p) (.int (q - p)) = .ok (f (p, q))) :
    sliceWindows window cuts = .ok ((neighbours cuts).map f) :=
  mapM_eq_ok fun slice hslice => h slice.1 slice.2 hslice

/-- The windows of consecutive slices lead through all that a clip plays of its source, and a
reversed clip never gets back beyond its beginning there. -/
theorem sliceWindows_playThrough (h : c.Counts start length trim speed) (hlength : 0 < length)
    (hspeed : 1 ≤ speed) {cuts : List Int} (hcuts : cuts.IsChain (· ≤ ·))
    (hfirst : cuts.head? = some start) (hlast : cuts.getLast? = some (start + length)) :
    ∃ windows, sliceWindows (Window.ofSlice c) cuts = .ok windows ∧
      sliceWindows (Window.unbounded c) cuts = .ok windows ∧
      PlaysThrough c.reversed speed trim (trim + length * speed) cuts windows := by
  have hbounds : ∀ p q, (p, q) ∈ neighbours cuts → start ≤ p ∧ p ≤ q ∧ q ≤ start + length :=
    fun p q => bounds_of_mem_neighbours hcuts hfirst hlast
  have hwindows := sliceWindows_eq fun p q (_ : (p, q) ∈ neighbours cuts) => h.unbounded_eq p q
  refine ⟨_, ?_, hwindows, ?_⟩
  · apply sliceWindows_eq
    intro p q hslice
    rw [h.ofSlice_eq_unbounded hspeed (hbounds p q hslice).2.2, h.unbounded_eq]
  · obtain ⟨q, rest, rfl⟩ : ∃ q rest, cuts = start :: q :: rest := by
      rcases cuts with _ | ⟨p, _ | ⟨q, rest⟩⟩
      · simp at hfirst
      · simp only [List.head?_cons, List.getLast?_singleton, Option.some.injEq] at hfirst hlast
        omega
      · exact ⟨q, rest, by rw [Option.some.inj hfirst]⟩
    have hmeet := neighbours_isChain (start :: q :: rest)
    rw [← getLast?_neighbours, Option.map_eq_some_iff] at hlast
    obtain ⟨last, hend, hstop⟩ := hlast
    constructor
    case lengths =>
      rw [List.forall₂_map_right_iff, List.forall₂_same]
      rintro ⟨p, q'⟩ hslice
      obtain ⟨hp, -, hq⟩ := hbounds p q' hslice
      exact Clip.windowAt_eq_between hspeed hp hq
    case onward =>
      intro honward
      rw [List.getLast?_map, hend, List.isChain_map]
      refine ⟨?_, hmeet.imp ?_, ?_⟩
      · simp [Clip.windowAt_onward honward, Window.between, neighbours_cons]
      · intro slice next hnext
        simp [Clip.windowAt_onward honward, Window.between, hnext]
      · simp [Clip.windowAt_onward honward, Window.between, hstop]
    case back =>
      intro hback
      rw [List.getLast?_map, hend, List.isChain_map]
      refine ⟨?_, hmeet.imp ?_, ?_⟩
      · simp [Clip.windowAt_back hback, Window.between, neighbours_cons]
      · intro slice next hnext
        simp [Clip.windowAt_back hback, Window.between, hnext]
      · simp [Clip.windowAt_back hback, Window.between, hstop]

/-- A reversed clip of a second that plays two seconds of its source. -/
def backwardClip : Clip :=
  { id := "shot", mediaId := "film", track := 0, start := .int 500, duration := .int 1000,
    trimStart := some (.int 250), speed := some (.int 2), reversed := true }

theorem sliceWindows_backwardClip :
    ∃ windows, sliceWindows (Window.ofSlice backwardClip) [500, 800, 1500] = .ok windows ∧
      sliceWindows (Window.unbounded backwardClip) [500, 800, 1500] = .ok windows ∧
      PlaysThrough true 2 250 2250 [500, 800, 1500] windows :=
  have hcounts : backwardClip.Counts 500 1000 250 2 := .of_fields rfl rfl rfl rfl (by decide)
  sliceWindows_playThrough hcounts (by decide) (by decide) (by decide) rfl rfl

end Slices

end Montage
