import Mathlib.Data.Rat.Floor
import Montage.Proofs.Number.Order
import Montage.Timeline.Winner

/-!
Instants of the timeline, and who wins a channel at one of them, said over the list of clips
alone.
-/

namespace Montage

/-- An instant of the timeline, in milliseconds. -/
abbrev Instant := ℚ

/-- The last place at or before an instant.  Numbers lie on whole units only,
so none of them is between the two. -/
def Place.ofInstant (t : Instant) : Place := .point ⌊t * unitsInOne⌋

theorem Place.ofInstant_lt_top (t : Instant) : Place.ofInstant t < .top :=
  not_le.1 (Place.not_top_le_point _)

namespace Number

/-- The number lies at or before an instant. -/
def reachedAt (a : Number) (t : Instant) : Bool :=
  match a.place? with
  | some .bottom => true
  | some (.point n) => decide ((n : ℚ) / unitsInOne ≤ t)
  | _ => false

/-- The number lies after an instant. -/
def isAfter (a : Number) (t : Instant) : Bool :=
  match a.place? with
  | some (.point n) => decide (t < (n : ℚ) / unitsInOne)
  | some .top => true
  | _ => false

theorem unitsInOne_rat_pos : (0 : ℚ) < unitsInOne :=
  Nat.cast_pos.2 unitsInOne_pos

variable {a : Number} {p : Place} {t : Instant}

theorem reachedAt_iff (ha : a.place? = some p) :
    a.reachedAt t = true ↔ p ≤ Place.ofInstant t := by
  cases p with
  | bottom =>
      simp only [reachedAt, ha, true_iff]
      exact Place.bottom_le _
  | top =>
      simp only [reachedAt, ha, Bool.false_eq_true, false_iff, not_le]
      exact Place.ofInstant_lt_top t
  | point n =>
      simp only [reachedAt, ha, Place.ofInstant, decide_eq_true_eq,
        Place.point_le_point, Int.le_floor]
      exact div_le_iff₀ unitsInOne_rat_pos

theorem isAfter_iff (ha : a.place? = some p) :
    a.isAfter t = true ↔ Place.ofInstant t < p := by
  cases p with
  | bottom =>
      simp only [isAfter, ha, Bool.false_eq_true, false_iff, not_lt]
      exact Place.bottom_le _
  | top =>
      simp only [isAfter, ha, true_iff]
      exact Place.ofInstant_lt_top t
  | point n =>
      simp only [isAfter, ha, Place.ofInstant, decide_eq_true_eq,
        Place.point_lt_point, Int.floor_lt]
      exact lt_div_iff₀ unitsInOne_rat_pos

theorem exists_place_of_isAfter (h : a.isAfter t = true) :
    ∃ p, a.place? = some p ∧ Place.ofInstant t < p := by
  rcases hp : a.place? with _ | p
  · simp [isAfter, hp] at h
  · exact ⟨p, rfl, (isAfter_iff hp).1 h⟩

/-- Numbers at one place lie after the same instants. -/
theorem isAfter_congr {b : Number} (h : a.place? = b.place?) :
    a.isAfter t = b.isAfter t := by
  simp only [isAfter, h]

theorem reachedAt_int {n : Int} : (Number.int n).reachedAt t = true ↔ n ≤ t := by
  rw [reachedAt_iff (place?_int n), Place.ofInstant, Place.point_le_point,
    Int.le_floor]
  push_cast
  exact mul_le_mul_iff_left₀ unitsInOne_rat_pos

theorem isAfter_int {n : Int} : (Number.int n).isAfter t = true ↔ t < n := by
  rw [isAfter_iff (place?_int n), Place.ofInstant, Place.point_lt_point,
    Int.floor_lt]
  push_cast
  exact mul_lt_mul_iff_left₀ unitsInOne_rat_pos

end Number

/-- Every count of units is the place of an instant. -/
theorem Place.ofInstant_div (n : Int) :
    Place.ofInstant ((n : ℚ) / unitsInOne) = .point n := by
  rw [Place.ofInstant, div_mul_cancel₀ _ Number.unitsInOne_rat_pos.ne',
    Int.floor_intCast]

/-- A clip plays from its start up to, not including, its end. -/
def Clip.isOn (c : Clip) (t : Instant) : Bool :=
  c.start.reachedAt t &&
    match c.stop with
    | .ok e => e.isAfter t
    | .error _ => false

theorem Clip.isOn_eq {c : Clip} {e : Number} (he : c.stop = .ok e) (t : Instant) :
    c.isOn t = (c.start.reachedAt t && e.isAfter t) := by
  rw [isOn, he]

/-- A clip that plays has not ended. -/
theorem Clip.exists_stop_of_isOn {t : Instant} (c : Clip) (h : c.isOn t = true) :
    ∃ e, c.stop = .ok e ∧ e.isAfter t = true := by
  rcases he : c.stop with f | e
  · simp [isOn, he] at h
  · rw [isOn_eq he, Bool.and_eq_true] at h
    exact ⟨e, rfl, h.2⟩

theorem Clip.isOn_int {c : Clip} {m n : Int} (hstart : c.start = .int m)
    (hstop : c.stop = .ok (.int n)) {t : Instant} :
    c.isOn t = true ↔ m ≤ t ∧ t < n := by
  rw [Clip.isOn_eq hstop, hstart, Bool.and_eq_true, Number.reachedAt_int,
    Number.isAfter_int]

/-- The instants of a segment. -/
def Segment.holds (s : Segment) (t : Instant) : Bool :=
  s.start.reachedAt t && s.stop.isAfter t

/-- The clips that may win a channel at an instant: of those that play, all
may be heard, and those with a picture to show may be seen. -/
def candidates (sources : Sources) (clips : List Clip) (t : Instant) :
    Channel → List Clip
  | .audio => clips.filter fun c => c.isOn t
  | .video => clips.filter fun c =>
      c.isOn t && (c.visible && sources.hasPicture c)

/-- A clip is the first listed of those on the topmost track. -/
def IsTopmost (c : Clip) (clips : List Clip) : Prop :=
  ∃ before after, clips = before ++ c :: after ∧
    (∀ d ∈ before, c.track < d.track) ∧ ∀ d ∈ after, c.track ≤ d.track

/-- The winner among some clips: the topmost one, or nobody if there are
none. -/
def IsWinner : Option Clip → List Clip → Prop
  | some c, clips => IsTopmost c clips
  | none, clips => clips = []

theorem isWinner_singleton (c : Clip) : IsWinner (some c) [c] :=
  ⟨[], [], rfl, by simp, by simp⟩

theorem IsTopmost.mem {c : Clip} {clips : List Clip} (h : IsTopmost c clips) :
    c ∈ clips := by
  obtain ⟨before, after, rfl, -, -⟩ := h
  exact List.mem_append_right before List.mem_cons_self

/-- Two topmost clips of a list are one. -/
theorem IsTopmost.unique {c d : Clip} {clips : List Clip}
    (hc : IsTopmost c clips) (hd : IsTopmost d clips) : c = d := by
  obtain ⟨before, after, rfl, hbefore, hafter⟩ := hc
  obtain ⟨before', after', heq, hbefore', hafter'⟩ := hd
  rw [List.append_eq_append_iff] at heq
  rcases heq with ⟨mid, rfl, hmid⟩ | ⟨mid, rfl, hmid⟩
  · cases mid with
    | nil => exact (List.cons.inj hmid).1
    | cons x mid =>
        -- `c` comes before `d`, so its track is above and not above
        obtain ⟨rfl, rfl⟩ := List.cons.inj hmid
        have hlt := hbefore' c (by simp)
        have hle := hafter d (by simp)
        omega
  · cases mid with
    | nil => exact (List.cons.inj hmid).1.symm
    | cons x mid =>
        obtain ⟨rfl, rfl⟩ := List.cons.inj hmid
        have hlt := hbefore d (by simp)
        have hle := hafter' c (by simp)
        omega

/-- The topmost clip of all is the topmost one of those like it. -/
theorem IsTopmost.filter {c : Clip} {clips : List Clip} (h : IsTopmost c clips)
    {keeps : Clip → Bool} (hc : keeps c = true) :
    IsTopmost c (clips.filter keeps) := by
  obtain ⟨before, after, rfl, hbefore, hafter⟩ := h
  refine ⟨before.filter keeps, after.filter keeps, ?_, ?_, ?_⟩
  · rw [List.filter_append, List.filter_cons_of_pos hc]
  · intro d hd
    exact hbefore d (List.mem_of_mem_filter hd)
  · intro d hd
    exact hafter d (List.mem_of_mem_filter hd)

theorem isTopmost_append_singleton {best d : Clip} {seen : List Clip}
    (h : IsTopmost best seen) :
    IsTopmost (if d.track < best.track then d else best) (seen ++ [d]) := by
  obtain ⟨before, after, rfl, hbefore, hafter⟩ := h
  split
  · next hd =>
      refine ⟨before ++ best :: after, [], rfl, ?_, by simp⟩
      intro e he
      simp only [List.mem_append, List.mem_cons] at he
      rcases he with he | rfl | he
      · exact hd.trans (hbefore e he)
      · exact hd
      · exact hd.trans_le (hafter e he)
  · next hd =>
      refine ⟨before, after ++ [d], by simp, hbefore, ?_⟩
      intro e he
      simp only [List.mem_append, List.mem_singleton] at he
      rcases he with he | rfl
      · exact hafter e he
      · exact not_lt.1 hd

theorem isTopmost_foldl {best : Clip} {seen : List Clip}
    (h : IsTopmost best seen) (rest : List Clip) :
    IsTopmost (rest.foldl (fun best d => if d.track < best.track then d else best) best)
      (seen ++ rest) := by
  induction rest generalizing best seen with
  | nil => simpa using h
  | cons d rest ih =>
      simpa using ih (isTopmost_append_singleton (d := d) h)

theorem isWinner_topmost? (clips : List Clip) :
    IsWinner (topmost? clips) clips := by
  cases clips with
  | nil => rfl
  | cons c rest =>
      have hfirst : IsTopmost c [c] := ⟨[], [], by simp⟩
      exact isTopmost_foldl hfirst rest

theorem isWinner_iff {w : Option Clip} {clips : List Clip} :
    IsWinner w clips ↔ topmost? clips = w := by
  constructor
  · intro h
    have htop := isWinner_topmost? clips
    rcases w with _ | c
    · rw [show clips = [] from h]
      rfl
    · rcases hw : topmost? clips with _ | d
      · rw [hw] at htop
        rw [show clips = [] from htop] at h
        simpa using IsTopmost.mem h
      · rw [hw] at htop
        rw [IsTopmost.unique (h : IsTopmost c clips) htop]
  · rintro rfl
    exact isWinner_topmost? clips

/-- Of two lists of candidates, the second has the winner of the first. -/
theorem isWinner_iff_of_topmost? {first second : List Clip}
    (h : IsWinner (topmost? first) second) (w : Option Clip) :
    IsWinner w first ↔ IsWinner w second := by
  rw [isWinner_iff, isWinner_iff, isWinner_iff.1 h]

/-- The topmost clip comes first on its track, and no track is above it. -/
theorem isTopmost_iff {c : Clip} {clips : List Clip} :
    IsTopmost c clips ↔
      (clips.filter (·.track == c.track)).head? = some c ∧
        ∀ d ∈ clips, c.track ≤ d.track := by
  rw [List.head?_filter, List.find?_eq_some_iff_append]
  constructor
  · rintro ⟨before, after, rfl, hbefore, hafter⟩
    refine ⟨⟨beq_self_eq_true _, before, after, rfl, ?_⟩, ?_⟩
    · intro d hd
      simpa using (hbefore d hd).ne'
    · intro d hd
      rcases List.mem_append.1 hd with hd | hd
      · exact (hbefore d hd).le
      · rcases List.mem_cons.1 hd with rfl | hd
        · exact le_rfl
        · exact hafter d hd
  · rintro ⟨⟨-, before, after, rfl, hbefore⟩, hle⟩
    refine ⟨before, after, rfl, ?_, fun d hd => hle d (by simp [hd])⟩
    intro d hd
    have hne : d.track ≠ c.track := by simpa using hbefore d hd
    exact lt_of_le_of_ne (hle d (by simp [hd])) hne.symm

theorem mem_of_topmost?_eq_some {c : Clip} {clips : List Clip}
    (h : topmost? clips = some c) : c ∈ clips :=
  IsTopmost.mem (isWinner_iff.2 h)

theorem topmost?_eq_none_iff {clips : List Clip} :
    topmost? clips = none ↔ clips = [] :=
  isWinner_iff.symm

/-- Clips replaced by others on the same tracks have the winner replaced. -/
theorem IsTopmost.map {f : Clip → Clip} {c : Clip} {clips : List Clip}
    (hf : ∀ d ∈ clips, (f d).track = d.track) (h : IsTopmost c clips) :
    IsTopmost (f c) (clips.map f) := by
  obtain ⟨before, after, rfl, hbefore, hafter⟩ := h
  have hc : (f c).track = c.track := hf c (by simp)
  refine ⟨before.map f, after.map f, by simp, ?_, ?_⟩
  · intro d hd
    obtain ⟨e, he, rfl⟩ := List.mem_map.1 hd
    rw [hc, hf e (List.mem_append_left _ he)]
    exact hbefore e he
  · intro d hd
    obtain ⟨e, he, rfl⟩ := List.mem_map.1 hd
    rw [hc, hf e (List.mem_append_right _ (List.mem_cons_of_mem c he))]
    exact hafter e he

theorem topmost?_map {f : Clip → Clip} {clips : List Clip}
    (hf : ∀ d ∈ clips, (f d).track = d.track) :
    topmost? (clips.map f) = (topmost? clips).map f := by
  have hwinner := isWinner_topmost? clips
  rcases htop : topmost? clips with _ | c
  · rw [topmost?_eq_none_iff.1 htop]
    rfl
  · rw [htop] at hwinner
    exact isWinner_iff.1 (IsTopmost.map hf hwinner : IsWinner (some (f c)) (clips.map f))

/-- Who could be seen is heard, or would be below who is heard. -/
theorem candidates_video (sources : Sources) (clips : List Clip) (t : Instant) :
    candidates sources clips t .video =
      (candidates sources clips t .audio).filter fun c =>
        c.visible && sources.hasPicture c := by
  simp only [candidates, List.filter_filter, Bool.and_comm]

theorem candidates_filter (sources : Sources) (clips : List Clip)
    (keep : Clip → Bool) (t : Instant) (channel : Channel) :
    candidates sources (clips.filter keep) t channel =
      (candidates sources clips t channel).filter keep := by
  cases channel <;> simp only [candidates, List.filter_filter, Bool.and_comm]

theorem candidates_subset {sources : Sources} {clips : List Clip}
    {t : Instant} {channel : Channel} {c : Clip}
    (hc : c ∈ candidates sources clips t channel) : c ∈ clips := by
  cases channel <;> exact List.mem_of_mem_filter hc

theorem isOn_of_mem_candidates {sources : Sources} {clips : List Clip}
    {t : Instant} {channel : Channel} {c : Clip}
    (hc : c ∈ candidates sources clips t channel) : c.isOn t = true := by
  cases channel with
  | video => exact (Bool.and_eq_true_iff.1 (List.mem_filter.1 hc).2).1
  | audio => exact (List.mem_filter.1 hc).2

/-- A clip with a picture to show may win both channels. -/
theorem mem_candidates {sources : Sources} {clips : List Clip} {t : Instant}
    (channel : Channel) {c : Clip} (hc : c ∈ clips) (hon : c.isOn t = true)
    (hpicture : (c.visible && sources.hasPicture c) = true) :
    c ∈ candidates sources clips t channel := by
  cases channel with
  | video => exact List.mem_filter.2 ⟨hc, Bool.and_eq_true_iff.2 ⟨hon, hpicture⟩⟩
  | audio => exact List.mem_filter.2 ⟨hc, hon⟩

end Montage
