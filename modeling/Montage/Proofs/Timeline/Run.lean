import Montage.Proofs.Timeline.Joint
import Montage.Proofs.Timeline.Range

/-!
What joined segments carry.

A joined segment is made of one segment and those after it, each added at a joint.  What holds of
every single segment and is kept by a joint holds of all that is joined: above all, the runs of a
joined segment hold the winners of all its instants.
-/

namespace Montage

theorem mem_extendRun_left {run : List Clip} (more : List Clip) {c : Clip}
    (h : c ∈ run) : c ∈ extendRun run more := by
  obtain ⟨rest, hrest, -⟩ := extendRun_eq_append run more
  rw [hrest]
  exact List.mem_append_left rest h

/-- A clip that is not added is there already. -/
theorem mem_extendRun_right {clips run more : List Clip} {c : Clip}
    (hclips : Coherent clips) (hrun : ∀ d ∈ run, d ∈ clips)
    (hmore : ∀ d ∈ more, d ∈ clips) (h : c ∈ more) :
    c ∈ extendRun run more := by
  induction more generalizing run with
  | nil => simp at h
  | cons d rest ih =>
      obtain ⟨hd, hrest⟩ := List.forall_mem_cons.1 hmore
      simp only [extendRun]
      split
      · next hlast =>
          rcases List.mem_cons.1 h with rfl | h
          · obtain ⟨e, he, hid⟩ := (Option.any_eq_true _ _).1 hlast
            have hmem := List.mem_of_getLast? he
            rw [← hclips e (hrun e hmem) c hd (beq_iff_eq.1 hid)]
            exact mem_extendRun_left rest hmem
          · exact ih hrun hrest h
      · rcases List.mem_cons.1 h with rfl | h
        · exact mem_extendRun_left rest (by simp)
        · refine ih ?_ hrest h
          intro e he
          rcases List.mem_append.1 he with he | he
          · exact hrun e he
          · rw [List.mem_singleton.1 he]
            exact hd

/-- What two clips without a seam are to each other, the neighbours of a run are. -/
theorem isChain_run_joined {rule : FilterRule} {R : Clip → Clip → Prop} {s t : Segment}
    {channel : Channel} {w : Option Clip} (hs : (s.run channel).IsChain R)
    (ht : t.run channel = w.toList) (hj : joint rule s t = some .joined)
    (hlink : ∀ p ∈ s.run channel, ∀ n ∈ t.run channel, seamless p n t.start = .ok true →
      sameRendering channel p n (rule p) (rule n) = .ok true → R p n) :
    ((s.joined t).run channel).IsChain R := by
  rw [Segment.run_joined, ht]
  cases w with
  | none => exact hs
  | some n =>
      simp only [Option.toList_some, extendRun]
      split
      · exact hs
      · next hlast =>
          apply hs.append (.singleton n)
          intro p hp n' hn'
          obtain rfl : n = n' := Option.some.inj hn'
          obtain ⟨hnil, -⟩ | ⟨q, m, hq, hm, hcont⟩ := (joint_eq_joined hj).2 channel
          · rw [Segment.tail?, Option.mem_def.1 hp] at hnil
            simp at hnil
          · obtain rfl : p = q := Option.some.inj (hp.symm.trans hq)
            rw [Segment.winner?, ht] at hm
            obtain rfl : n = m := Option.some.inj hm
            -- a clip of the same id would not have been added
            rcases hcont with hid | ⟨hseam, hsame⟩
            · rw [Option.mem_def.1 hp] at hlast
              simp [hid] at hlast
            · exact hlink p (List.mem_of_getLast? hp) n (by simp [ht]) hseam hsame

section Invariant

variable {rule : FilterRule} {Single P : Segment → Prop}
  {M : Number → Number → Prop} {current : Segment} {rest segments : List Segment}
  {r : Joined}

/-- What a joint keeps holds of all joined segments. -/
theorem joinOn_forall (hsingle : ∀ s, Single s → P s)
    (hjoin : ∀ s t, P s → Single t → M s.stop t.start →
      joint rule s t = some .joined → P (s.joined t))
    (hcurrent : P current) (hrest : ∀ s ∈ rest, Single s)
    (hchain : (current :: rest).IsChain fun s t => M s.stop t.start)
    (h : joinOn rule current rest = some r) : ∀ g ∈ r.segments, P g := by
  induction rest generalizing current r with
  | nil =>
      obtain rfl := Option.some.inj h
      simpa using hcurrent
  | cons t rest ih =>
      obtain ⟨ht, hrest⟩ := List.forall_mem_cons.1 hrest
      have hseam : M current.stop t.start := hchain.rel_head? (by simp)
      rcases joinOn_cases h with ⟨hj, h⟩ | ⟨b, later, -, hlater, rfl⟩
      · have hlater : (current.joined t :: rest).IsChain
            fun s t => M s.stop t.start :=
          hchain.tail.tail.cons fun _ hu => hchain.tail.rel_head? hu
        exact ih (hjoin current t hcurrent ht hseam hj) hrest hlater h
      · exact List.forall_mem_cons.2
          ⟨hcurrent, ih (hsingle t ht) hrest hchain.tail hlater⟩

theorem joinAll_forall (hsingle : ∀ s, Single s → P s)
    (hjoin : ∀ s t, P s → Single t → M s.stop t.start →
      joint rule s t = some .joined → P (s.joined t))
    (hall : ∀ s ∈ segments, Single s)
    (hchain : segments.IsChain fun s t => M s.stop t.start)
    (h : joinAll rule segments = some r) : ∀ g ∈ r.segments, P g := by
  cases segments with
  | nil =>
      obtain rfl := Option.some.inj h
      simp
  | cons s rest =>
      obtain ⟨hs, hrest⟩ := List.forall_mem_cons.1 hall
      exact joinOn_forall hsingle hjoin (hsingle s hs) hrest hchain h

/-- Segments can be joined when no joint fails. -/
theorem exists_joinOn (hsingle : ∀ s, Single s → P s)
    (hjoin : ∀ s t, P s → Single t → M s.stop t.start →
      joint rule s t = some .joined → P (s.joined t))
    (hjoint : ∀ s t, P s → Single t → M s.stop t.start → joint rule s t ≠ none)
    (hcurrent : P current) (hrest : ∀ s ∈ rest, Single s)
    (hchain : (current :: rest).IsChain fun s t => M s.stop t.start) :
    ∃ r, joinOn rule current rest = some r := by
  induction rest generalizing current with
  | nil => exact ⟨_, rfl⟩
  | cons t rest ih =>
      obtain ⟨ht, hrest⟩ := List.forall_mem_cons.1 hrest
      have hseam : M current.stop t.start := hchain.rel_head? (by simp)
      rcases hj : joint rule current t with _ | _ | b
      · exact absurd hj (hjoint current t hcurrent ht hseam)
      · rw [joinOn_of_joined hj]
        have hlater : (current.joined t :: rest).IsChain
            fun s t => M s.stop t.start :=
          hchain.tail.tail.cons fun _ hu => hchain.tail.rel_head? hu
        exact ih (hjoin current t hcurrent ht hseam hj) hrest hlater
      · rw [joinOn_of_apart hj]
        obtain ⟨later, hlater⟩ := ih (hsingle t ht) hrest hchain.tail
        exact ⟨_, by rw [hlater]; rfl⟩

theorem exists_joinAll (hsingle : ∀ s, Single s → P s)
    (hjoin : ∀ s t, P s → Single t → M s.stop t.start →
      joint rule s t = some .joined → P (s.joined t))
    (hjoint : ∀ s t, P s → Single t → M s.stop t.start → joint rule s t ≠ none)
    (hall : ∀ s ∈ segments, Single s)
    (hchain : segments.IsChain fun s t => M s.stop t.start) :
    ∃ r, joinAll rule segments = some r := by
  cases segments with
  | nil => exact ⟨_, rfl⟩
  | cons s rest =>
      obtain ⟨hs, hrest⟩ := List.forall_mem_cons.1 hall
      exact exists_joinOn hsingle hjoin hjoint (hsingle s hs) hrest hchain

end Invariant

/-- What follows from a relation of members follows one by one. -/
theorem forall₂_imp_of_mem {α β : Type} {R S : α → β → Prop} {l : List α} {l' : List β}
    (h : List.Forall₂ R l l') (himp : ∀ a ∈ l, ∀ b ∈ l', R a b → S a b) :
    List.Forall₂ S l l' := by
  rw [List.forall₂_iff_zip] at h ⊢
  refine ⟨h.1, fun hz => ?_⟩
  obtain ⟨ha, hb⟩ := List.of_mem_zip hz
  exact himp _ ha _ hb (h.2 hz)

/-- Joined segments that are related one by one, with one flag. -/
structure Joined.Related (R : Segment → Segment → Prop) (r r' : Joined) : Prop where
  segments : List.Forall₂ R r.segments r'.segments
  blocked_eq : r.blocked = r'.blocked

section Related

variable {rule rule' : FilterRule} {R : Segment → Segment → Prop} {M : Number → Number → Prop}
  {s s' : Segment} {rest rest' : List Segment}

/-- Segments that are related one by one are joined alike, when the joints between them are the same
and keep the relation. -/
theorem joinOn_related
    (hjoint : ∀ {s s' t t'}, R s s' → R t t' → M s.stop t.start → M s'.stop t'.start →
      joint rule s t = joint rule' s' t')
    (hjoined : ∀ {s s' t t'}, R s s' → R t t' → joint rule s t = some .joined →
      R (s.joined t) (s'.joined t'))
    (hcurrent : R s s') (hrest : List.Forall₂ R rest rest')
    (hchain : (s :: rest).IsChain fun u v => M u.stop v.start)
    (hchain' : (s' :: rest').IsChain fun u v => M u.stop v.start) :
    Option.Rel (Joined.Related R) (joinOn rule s rest) (joinOn rule' s' rest') := by
  induction hrest generalizing s s' with
  | nil => exact .some ⟨.cons hcurrent .nil, rfl⟩
  | @cons t t' rest rest' ht hrest ih =>
      have hsame : joint rule s t = joint rule' s' t' :=
        hjoint hcurrent ht hchain.rel hchain'.rel
      rcases hj : joint rule s t with _ | _ | b
      · rw [joinOn_of_none hj, joinOn_of_none (hsame ▸ hj)]
        exact .none
      · rw [joinOn_of_joined hj, joinOn_of_joined (hsame ▸ hj)]
        apply ih (hjoined hcurrent ht hj)
        · exact hchain.tail.tail.cons fun _ hu => hchain.tail.rel_head? hu
        · exact hchain'.tail.tail.cons fun _ hu => hchain'.tail.rel_head? hu
      · rw [joinOn_of_apart hj, joinOn_of_apart (hsame ▸ hj)]
        have hlater := ih ht hchain.tail hchain'.tail
        generalize joinOn rule t rest = later, joinOn rule' t' rest' = later' at hlater
        cases hlater with
        | none => exact .none
        | some h => exact .some ⟨.cons hcurrent h.segments, congrArg (b || ·) h.blocked_eq⟩

theorem joinAll_related
    (hjoint : ∀ {s s' t t'}, R s s' → R t t' → M s.stop t.start → M s'.stop t'.start →
      joint rule s t = joint rule' s' t')
    (hjoined : ∀ {s s' t t'}, R s s' → R t t' → joint rule s t = some .joined →
      R (s.joined t) (s'.joined t'))
    {segments segments' : List Segment} (h : List.Forall₂ R segments segments')
    (hchain : segments.IsChain fun u v => M u.stop v.start)
    (hchain' : segments'.IsChain fun u v => M u.stop v.start) :
    Option.Rel (Joined.Related R) (joinAll rule segments) (joinAll rule' segments') := by
  cases h with
  | nil => exact .some ⟨.nil, rfl⟩
  | cons hs hrest => exact joinOn_related hjoint hjoined hs hrest hchain hchain'

end Related

/-- Joined segments tile what the segments tile. -/
theorem joinOn_tiles {rule : FilterRule} {current : Segment}
    {rest : List Segment} {r : Joined} {a b : Place}
    (htiles : Tiles a b (current :: rest))
    (h : joinOn rule current rest = some r) : Tiles a b r.segments := by
  induction rest generalizing current a r with
  | nil =>
      obtain rfl := Option.some.inj h
      exact htiles
  | cons t rest ih =>
      obtain ⟨ha, e, he, hae, ht, e', he', hlt, hrest⟩ := htiles
      rcases joinOn_cases h with ⟨-, h⟩ | ⟨b, later, -, hlater, rfl⟩
      · have hjoined : Tiles a b (current.joined t :: rest) :=
          ⟨ha, e', he', hae.trans hlt, hrest⟩
        exact ih hjoined h
      · exact ⟨ha, e, he, hae, ih ⟨ht, e', he', hlt, hrest⟩ hlater⟩

theorem joinAll_tiles {rule : FilterRule} {segments : List Segment} {r : Joined}
    {a b : Place} (htiles : Tiles a b segments)
    (h : joinAll rule segments = some r) : Tiles a b r.segments := by
  cases segments with
  | nil =>
      obtain rfl := Option.some.inj h
      exact htiles
  | cons s rest => exact joinOn_tiles htiles h

/-- A segment before any is joined: for a while, one winner or none is played
on each channel. -/
structure Shows (sources : Sources) (clips : List Clip) (s : Segment) : Prop
    where
  plays : PlaysWinners sources clips s
  single : ∀ channel, ∃ w : Option Clip, s.run channel = w.toList
  lasts : ∃ p e, s.start.place? = some p ∧ s.stop.place? = some e ∧
    Place.point 0 ≤ p ∧ p < e

/-- The runs of a segment hold the winners of all its instants, and no clips
that could not be played. -/
structure Carries (sources : Sources) (clips : List Clip) (g : Segment) : Prop
    where
  placed : ∃ p e, g.start.place? = some p ∧ g.stop.place? = some e
  winner_mem : ∀ t, g.holds t = true → ∀ channel, ∀ c,
    topmost? (candidates sources clips t channel) = some c → c ∈ g.run channel
  nil_iff : ∀ t, g.holds t = true → ∀ channel,
    g.run channel = [] ↔ candidates sources clips t channel = []
  played : ∀ channel, ∀ c ∈ g.run channel,
    ∃ t, c ∈ candidates sources clips t channel

section Carries

variable {sources : Sources} {clips : List Clip} {s t : Segment}

theorem Shows.carries (h : Shows sources clips s) : Carries sources clips s := by
  obtain ⟨p, e, hp, he, hp0, hpe⟩ := h.lasts
  refine ⟨⟨p, e, hp, he⟩, ?_, ?_, ?_⟩
  · intro u hu channel c hc
    rw [h.plays u hu channel, hc]
    exact List.mem_singleton.2 rfl
  · intro u hu channel
    rw [h.plays u hu channel, Option.toList_eq_nil_iff, topmost?_eq_none_iff]
  · intro channel c hc
    obtain ⟨u, -, hpu, hue⟩ := exists_instant hp0 hpe
    rw [h.plays u ((Segment.holds_iff hp he).2 ⟨hpu, hue⟩) channel,
      Option.mem_toList] at hc
    exact ⟨u, mem_of_topmost?_eq_some hc⟩

/-- At each of its instants, a segment is won by the clip that wins then. -/
theorem Shows.winner?_eq (h : Shows sources clips s) {u : Instant} (hu : s.holds u = true)
    (channel : Channel) : s.winner? channel = topmost? (candidates sources clips u channel) := by
  rw [Segment.winner?, h.plays u hu channel, Option.head?_toList]

/-- A clip plays for as long as a segment that it wins. -/
theorem Shows.clip_spans (h : Shows sources clips s) {channel : Channel} {c : Clip} {m n : Int}
    (hc : c ∈ s.run channel) (hstart : c.start = .int m) (hstop : c.stop = .ok (.int n)) :
    (Number.int m).le s.start = true ∧ s.stop.le (.int n) = true := by
  obtain ⟨p, e, hp, he, hp0, hpe⟩ := h.lasts
  have hon : ∀ u, p ≤ Place.ofInstant u → Place.ofInstant u < e → m ≤ u ∧ u < n := by
    intro u hpu hue
    rw [h.plays u ((Segment.holds_iff hp he).2 ⟨hpu, hue⟩) channel, Option.mem_toList] at hc
    exact (Clip.isOn_int hstart hstop).1
      (isOn_of_mem_candidates (mem_of_topmost?_eq_some hc))
  rw [Number.le_iff (Number.place?_int m) hp, Number.le_iff he (Number.place?_int n)]
  constructor
  · by_contra hlt
    obtain ⟨u, -, hpu, hue⟩ := exists_instant hp0 (lt_min hpe (not_le.1 hlt))
    obtain ⟨hbefore, hearly⟩ := lt_min_iff.1 hue
    have hreached := Number.reachedAt_int.2 (hon u hpu hbefore).1
    rw [Number.reachedAt_iff (Number.place?_int m)] at hreached
    exact absurd hearly (not_lt.2 hreached)
  · by_contra hlt
    obtain ⟨u, -, hlate, hue⟩ := exists_instant (hp0.trans (le_max_left p _))
      (max_lt hpe (not_le.1 hlt))
    obtain ⟨hpu, hended⟩ := max_le_iff.1 hlate
    have hafter := Number.isAfter_int.2 (hon u hpu hue).2
    rw [Number.isAfter_iff (Number.place?_int n)] at hafter
    exact absurd hended (not_le.2 hafter)

theorem Carries.within (h : Carries sources clips s) : s.Within clips := by
  intro channel c hc
  obtain ⟨u, hu⟩ := h.played channel c hc
  exact candidates_subset hu

/-- An instant of a joined segment belongs to one of its parts. -/
theorem holds_or_holds_of_joined {p e e' : Place}
    (hp : s.start.place? = some p) (he : s.stop.place? = some e)
    (ht : t.start.place? = some e) (he' : t.stop.place? = some e') {u : Instant}
    (h : (s.joined t).holds u = true) : s.holds u = true ∨ t.holds u = true := by
  have hbounds := (Segment.holds_iff (s := s.joined t) hp he').1 h
  rw [Segment.holds_iff hp he, Segment.holds_iff ht he']
  rcases lt_or_ge (Place.ofInstant u) e with hlt | hge
  · exact Or.inl ⟨hbounds.1, hlt⟩
  · exact Or.inr ⟨hge, hbounds.2⟩

theorem Carries.joined {rule : FilterRule} (hclips : Coherent clips)
    (hs : Carries sources clips s) (ht : Carries sources clips t)
    (hseam : s.stop.place? = t.start.place?)
    (hj : joint rule s t = some .joined) : Carries sources clips (s.joined t) := by
  obtain ⟨p, e, hp, he⟩ := hs.placed
  obtain ⟨q, e', hq, he'⟩ := ht.placed
  have hparts : ∀ {u}, (s.joined t).holds u = true →
      s.holds u = true ∨ t.holds u = true :=
    holds_or_holds_of_joined hp he (hseam ▸ he) he'
  have hnil : ∀ channel, (s.joined t).run channel = [] ↔ s.run channel = [] := by
    intro channel
    have hboth := run_ne_nil_iff hj channel
    rw [Segment.run_joined]
    constructor
    · intro h
      obtain ⟨rest, hrest, -⟩ := extendRun_eq_append (s.run channel) (t.run channel)
      rw [hrest] at h
      exact (List.append_eq_nil_iff.1 h).1
    · intro h
      rw [h, not_ne_iff.1 (mt hboth.2 (not_ne_iff.2 h))]
      rfl
  refine ⟨⟨p, e', hp, he'⟩, ?_, ?_, ?_⟩
  · intro u hu channel c hc
    rw [Segment.run_joined]
    rcases hparts hu with hu | hu
    · exact mem_extendRun_left _ (hs.winner_mem u hu channel c hc)
    · exact mem_extendRun_right hclips (hs.within channel) (ht.within channel)
        (ht.winner_mem u hu channel c hc)
  · intro u hu channel
    rw [hnil]
    rcases hparts hu with hu | hu
    · exact hs.nil_iff u hu channel
    · rw [← ht.nil_iff u hu channel]
      exact not_iff_not.1 (run_ne_nil_iff hj channel)
  · intro channel c hc
    rw [Segment.run_joined] at hc
    exact (mem_of_mem_extendRun hc).elim (hs.played channel c)
      (ht.played channel c)

/-- Joined segments carry the winners of all their instants. -/
theorem joinAll_carries {rule : FilterRule} (hclips : Coherent clips)
    {segments : List Segment} {a b : Place} {r : Joined}
    (htiles : Tiles a b segments) (hshows : ∀ s ∈ segments, Shows sources clips s)
    (h : joinAll rule segments = some r) :
    ∀ g ∈ r.segments, Carries sources clips g :=
  joinAll_forall (M := fun x y => x.place? = y.place?)
    (fun _ hs => hs.carries)
    (fun _ _ hs ht hseam hj => hs.joined hclips ht.carries hseam hj) hshows
    htiles.isChain h

end Carries

end Montage
