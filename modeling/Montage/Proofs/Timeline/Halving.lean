import Montage.Proofs.Timeline.Range
import Montage.Proofs.Timeline.Source

/-!
Segments that are cut in two.

The two parts of a segment play the same clips, so joining puts them together again, whatever
stands around them.  Where a range is divided at a time, at most one segment is cut there: every
other one lies in one of the two parts of the range.
-/

namespace Montage

namespace Segment

/-- The part of a segment before a time. -/
def before (s : Segment) (x : Number) : Segment := { s with stop := x }

/-- The part of a segment from a time on. -/
def after (s : Segment) (x : Number) : Segment := { s with start := x }

/-- Each channel plays one clip at most. -/
def Single (s : Segment) : Prop := ∀ channel, ∃ w : Option Clip, s.run channel = w.toList

end Segment

/-- A number is close to itself. -/
theorem closeTimes_self {x : Number} {n : Int} (hx : x.place? = some (.point n)) :
    closeTimes x x = .ok true := by
  obtain ⟨half, -, -, hhalf⟩ := place?_timeTolerance
  cases x with
  | int k => rw [closeTimes_int, decide_eq_true rfl]
  | float v =>
      have hle : (Number.float .zero).le timeTolerance = true :=
        (Number.le_iff rfl hhalf).2 (Place.point_le_point.2 (Int.natCast_nonneg half))
      simp only [closeTimes, closeWithin, Number.distance, Number.sub, Number.zipFloat,
        Number.toBinary64, bind, Except.bind, pure, Except.pure, Number.abs,
        Binary64.abs_sub_self hx, hle]

/-- Close neighbours are joined when both channels go on. -/
theorem joint_of_agrees {rule : FilterRule} {s t : Segment}
    (hclose : closeTimes s.stop t.start = .ok true)
    (h : ∀ channel, ∃ d, Decision.between rule (s.tail? channel) (t.winner? channel) t.start
      channel = .ok d ∧ d.agrees = true) : joint rule s t = some .joined := by
  obtain ⟨audio, haudio, hagrees⟩ := h .audio
  obtain ⟨video, hvideo, hagrees'⟩ := h .video
  simp only [joint, hclose, haudio, hvideo, Except.toOption, bind, Option.bind_some, hagrees,
    hagrees', Bool.and_self, ↓reduceIte, pure]

section SameRuns

variable {rule : FilterRule} {s t : Segment}

theorem Segment.Single.tail?_eq (hs : s.Single) (channel : Channel) :
    s.tail? channel = s.winner? channel := by
  obtain ⟨w, hw⟩ := hs channel
  rw [Segment.tail?, Segment.winner?, hw]
  cases w <;> rfl

/-- A segment goes on with the same clips. -/
theorem joint_of_sameRuns (hs : s.Single) (hruns : ∀ channel, t.run channel = s.run channel)
    (hclose : closeTimes s.stop t.start = .ok true) : joint rule s t = some .joined := by
  refine joint_of_agrees hclose fun channel => ?_
  have hwinner : t.winner? channel = s.winner? channel := by
    rw [Segment.winner?, hruns, Segment.winner?]
  rw [hs.tail?_eq, hwinner]
  cases s.winner? channel with
  | none => exact ⟨.empty, rfl, rfl⟩
  | some c =>
      refine ⟨.sameClip, ?_, rfl⟩
      simp only [Decision.between, beq_self_eq_true, ↓reduceIte]

/-- Joined to one with the same clips, a segment only lasts longer. -/
theorem joined_of_sameRuns (hs : s.Single) (hruns : ∀ channel, t.run channel = s.run channel) :
    s.joined t = { s with stop := t.stop } := by
  have hrun : ∀ channel, extendRun (s.run channel) (t.run channel) = s.run channel := by
    intro channel
    obtain ⟨w, hw⟩ := hs channel
    rw [hruns, hw]
    cases w <;> simp [extendRun]
  have hvideo : extendRun s.video t.video = s.video := hrun .video
  have haudio : extendRun s.audio t.audio = s.audio := hrun .audio
  rw [Segment.joined, hvideo, haudio]

end SameRuns

/-- A list of segments, and the same list with one of them, or none, cut in two at a time. -/
inductive Halved (x : Number) : List Segment → List Segment → Prop where
  | whole (segments : List Segment) : Halved x segments segments
  | cut (front : List Segment) (s : Segment) (back : List Segment) :
      Halved x (front ++ s :: back) (front ++ s.before x :: s.after x :: back)

namespace Halved

variable {x : Number} {segments halved : List Segment}

theorem cons (h : Halved x segments halved) (s : Segment) :
    Halved x (s :: segments) (s :: halved) := by
  cases h with
  | whole => exact .whole _
  | cut front u back => exact .cut (s :: front) u back

end Halved

section Joining

variable {rule : FilterRule} {clips : List Clip} (hclips : Coherent clips)
include hclips

/-- What is put in front of two lists that are joined alike changes nothing. -/
theorem joinAll_append_congr {front first second : List Segment}
    (hfront : ∀ s ∈ front, s.Within clips) (hfirst : ∀ s ∈ first, s.Within clips)
    (hsecond : ∀ s ∈ second, s.Within clips)
    (h : joinAll rule first = joinAll rule second) :
    joinAll rule (front ++ first) = joinAll rule (front ++ second) := by
  induction front with
  | nil => exact h
  | cons s rest ih =>
      obtain ⟨hs, hrest⟩ := List.forall_mem_cons.1 hfront
      rw [List.cons_append, List.cons_append,
        joinAll_cons hclips hs (List.forall_mem_append.2 ⟨hrest, hfirst⟩),
        joinAll_cons hclips hs (List.forall_mem_append.2 ⟨hrest, hsecond⟩), ih hrest]

/-- A segment that is cut in two is joined again. -/
theorem joinAll_of_halved {x : Number} {segments halved : List Segment}
    (h : Halved x segments halved) (hx : closeTimes x x = .ok true)
    (hwithin : ∀ s ∈ segments, s.Within clips) (hsingle : ∀ s ∈ segments, s.Single) :
    joinAll rule halved = joinAll rule segments := by
  cases h with
  | whole => rfl
  | cut front s back =>
      obtain ⟨hfront, hrest⟩ := List.forall_mem_append.1 hwithin
      obtain ⟨hs, hback⟩ := List.forall_mem_cons.1 hrest
      have hparts : ∀ u ∈ [s.before x, s.after x], u.Within clips :=
        List.forall_mem_cons.2 ⟨hs, List.forall_mem_singleton.2 hs⟩
      have hs' := hsingle s (List.mem_append_right front List.mem_cons_self)
      have hruns : ∀ channel, (s.after x).run channel = (s.before x).run channel := by
        intro channel
        cases channel <;> rfl
      have hbefore : (s.before x).Single := by
        intro channel
        cases channel
        · exact hs' .video
        · exact hs' .audio
      have hjoined : joinAll rule [s.before x, s.after x] = some ⟨[s], false⟩ := by
        change joinOn rule (s.before x) [s.after x] = _
        rw [joinOn_of_joined (joint_of_sameRuns hbefore hruns hx),
          joined_of_sameRuns hbefore hruns]
        rfl
      have hbehind : joinAll rule (s.before x :: s.after x :: back) =
          joinAll rule (s :: back) :=
        (joinAll_segments_append hclips hparts hback hjoined).symm
      exact joinAll_append_congr hclips hfront
        (List.forall_mem_append.2 ⟨hparts, hback⟩) hrest hbehind

end Joining

namespace ExportRange

variable {x y : Number} {z : Option Number} {p q e a b : Place} {segments : List Segment}

/-- Two spans that meet are one. -/
theorem Spans.append (hfirst : Spans ⟨x, some y⟩ p q) (hsecond : Spans ⟨y, z⟩ q e) :
    Spans ⟨x, z⟩ p e :=
  ⟨hfirst.start_eq, hsecond.stop_eq, hsecond.open_eq⟩

/-- From the time on at which a range is divided, its second part is all of it. -/
theorem clip_of_le (hfirst : Spans ⟨x, some y⟩ p q) (hsecond : Spans ⟨y, z⟩ q e) (hpq : p < q)
    (htiles : Tiles a b segments) (hqa : q ≤ a) :
    clip ⟨x, some y⟩ segments = [] ∧ clip ⟨y, z⟩ segments = clip ⟨x, z⟩ segments := by
  constructor
  · have hnil := clip_tiles hfirst htiles
    rw [max_eq_left (hpq.le.trans hqa),
      max_eq_left ((min_le_right b q).trans hqa)] at hnil
    exact hnil.eq_nil
  · have hcut : segments.map (cut ⟨y, z⟩) = segments.map (cut ⟨x, z⟩) := by
      refine List.map_congr_left fun u hu => ?_
      obtain ⟨c, d, hc, -, hac, -⟩ := htiles.places_of_mem hu
      have hsame : (cut ⟨y, z⟩ u).start = (cut ⟨x, z⟩ u).start := by
        rw [cut_start_eq hsecond hc (hqa.trans hac),
          cut_start_eq (hfirst.append hsecond) hc (hpq.le.trans (hqa.trans hac))]
      simp only [cut] at hsame ⊢
      rw [hsame]
    rw [clip, clip, hcut]

/-- Where a range is divided, at most one segment is cut. -/
theorem clip_halved (hfirst : Spans ⟨x, some y⟩ p q) (hsecond : Spans ⟨y, z⟩ q e) (hpq : p < q)
    (hqe : q < e) (htiles : Tiles a b segments) :
    Halved y (clip ⟨x, z⟩ segments) (clip ⟨x, some y⟩ segments ++ clip ⟨y, z⟩ segments) := by
  have hall := hfirst.append hsecond
  induction segments generalizing a with
  | nil => exact .whole []
  | cons s rest ih =>
      by_cases hqa : q ≤ a
      · obtain ⟨hnil, hsame⟩ := clip_of_le hfirst hsecond hpq htiles hqa
        rw [hnil, hsame]
        exact .whole _
      · obtain ⟨ha, c, hc, hac, hrest⟩ := htiles
        rw [not_le] at hqa
        have hlater := ih hrest
        have hsecondStart := cut_start hsecond ha
        have hsecondStop := cut_stop hsecond hc
        rw [clip_cons, clip_cons ⟨x, some y⟩, clip_cons ⟨y, z⟩]
        by_cases hcq : c ≤ q
        · -- the segment is over before the range is divided
          have hdropped : (cut ⟨y, z⟩ s).stop.le (cut ⟨y, z⟩ s).start = true := by
            rw [Number.le_iff hsecondStop hsecondStart]
            exact (min_le_left c e).trans (hcq.trans (le_max_right a q))
          have hstop : (cut ⟨x, some y⟩ s).stop = (cut ⟨x, z⟩ s).stop := by
            rw [cut_stop_eq hfirst hc hcq, cut_stop_eq hall hc (hcq.trans hqe.le)]
          have hsame : cut ⟨x, some y⟩ s = cut ⟨x, z⟩ s := by
            simp only [cut] at hstop ⊢
            rw [hstop]
          rw [if_pos hdropped, hsame]
          split
          · exact hlater
          · exact hlater.cons _
        · rw [not_le] at hcq
          obtain ⟨hnil, hsame⟩ := clip_of_le hfirst hsecond hpq hrest hcq.le
          have hkept : ¬(cut ⟨x, some y⟩ s).stop.le (cut ⟨x, some y⟩ s).start = true := by
            rw [Number.le_iff (cut_stop hfirst hc) (cut_start hfirst ha), not_le,
              min_eq_right hcq.le]
            exact max_lt hqa hpq
          have hkept' : ¬(cut ⟨y, z⟩ s).stop.le (cut ⟨y, z⟩ s).start = true := by
            rw [Number.le_iff hsecondStop hsecondStart, not_le, max_eq_right hqa.le]
            exact lt_min hcq hqe
          have hkept'' : ¬(cut ⟨x, z⟩ s).stop.le (cut ⟨x, z⟩ s).start = true := by
            rw [Number.le_iff (cut_stop hall hc) (cut_start hall ha), not_le]
            exact (max_lt hqa hpq).trans (lt_min hcq hqe)
          have hbefore : cut ⟨x, some y⟩ s = (cut ⟨x, z⟩ s).before y := by
            have hmin : s.stop.min y = y := by
              rw [Number.min, if_pos ((Number.lt_iff (hsecond.start_eq) hc).2 hcq)]
            simp only [cut, Segment.before, hmin]
          have hafter : cut ⟨y, z⟩ s = (cut ⟨x, z⟩ s).after y := by
            have hmax : s.start.max y = y := by
              rw [Number.max, if_pos ((Number.lt_iff ha hsecond.start_eq).2 hqa)]
            simp only [cut, Segment.after, hmax]
          rw [if_neg hkept, if_neg hkept', if_neg hkept'', hnil, hsame, hbefore, hafter]
          exact .cut [] _ _

end ExportRange

end Montage
