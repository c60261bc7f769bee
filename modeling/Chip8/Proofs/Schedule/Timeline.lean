import Chip8.Machine.Keypad

/-!
# Timelines

A timeline has the events of a list by their ticks, and those of one tick in the order of the list.
So of the events of a key that are due at a tick, the last one in the timeline is the one that
decides (`KeyEvent.Decides`) : none of them has a later tick, and none of the same tick stands
behind it in the list (`KeyEvent.getLast?_timeline`).

A keypad that events are delivered to shows for each key what the last of its events said, or what
it showed before if there was none (`Keypad.get_deliver`). With the events of a timeline that
are due, that is what the deciding event said (`Keypad.get_deliver_due`).
-/

namespace Chip8

namespace KeyEvent

/-- The event at a place of a list decides on a key at a tick : it is due, and of the other events of
the key that are due each has an earlier tick, or the same tick and an earlier place. -/
structure Decides (events : List KeyEvent) (k : Key) (tick : Int) (place : Nat) (e : KeyEvent) :
    Prop where
  found : events[place]? = some e
  own : e.key = k
  due : e.tick ≤ tick
  last : ∀ other e', events[other]? = some e' → e'.key = k → e'.tick ≤ tick →
    e'.tick < e.tick ∨ e'.tick = e.tick ∧ other ≤ place

/-- An event of a key that is due at a tick. -/
def isDue (k : Key) (tick : Int) (e : KeyEvent) : Bool := e.key = k ∧ e.tick ≤ tick

theorem isDue_iff {k : Key} {tick : Int} {e : KeyEvent} :
    e.isDue k tick = true ↔ e.key = k ∧ e.tick ≤ tick := decide_eq_true_iff

/-- At most one event decides. -/
theorem Decides.unique {events : List KeyEvent} {k : Key} {tick : Int} {place place' : Nat}
    {e e' : KeyEvent} (h : Decides events k tick place e) (h' : Decides events k tick place' e') :
    place = place' ∧ e = e' := by
  have hbefore := h.last place' e' h'.found h'.own h'.due
  have hbehind := h'.last place e h.found h.own h.due
  obtain rfl : place = place' := by omega
  exact ⟨rfl, Option.some.inj (h.found.symm.trans h'.found)⟩

theorem le_trans_tick (a b c : KeyEvent) (hab : decide (a.tick ≤ b.tick) = true)
    (hbc : decide (b.tick ≤ c.tick) = true) : decide (a.tick ≤ c.tick) = true := by
  simp only [decide_eq_true_eq] at *
  omega

theorem le_total_tick (a b : KeyEvent) :
    (decide (a.tick ≤ b.tick) || decide (b.tick ≤ a.tick)) = true := by
  simp only [Bool.or_eq_true, decide_eq_true_eq]
  omega

theorem pairwise_timeline (events : List KeyEvent) :
    (timeline events).Pairwise fun a b => a.tick ≤ b.tick :=
  (List.pairwise_mergeSort le_trans_tick le_total_tick events).imp fun h => decide_eq_true_iff.mp h

theorem timeline_perm (events : List KeyEvent) : (timeline events).Perm events :=
  List.mergeSort_perm events _

/-- What is left of a timeline when its front that is due is taken off is not due. -/
theorem lt_tick_of_mem_dropWhile {events : List KeyEvent} {tick : Int}
    (hsorted : events.Pairwise fun a b => a.tick ≤ b.tick) {e : KeyEvent}
    (he : e ∈ events.dropWhile fun e => e.tick ≤ tick) : tick < e.tick := by
  induction events with
  | nil => contradiction
  | cons first events ih =>
    obtain ⟨hfirst, hsorted⟩ := List.pairwise_cons.mp hsorted
    by_cases hdue : first.tick ≤ tick
    · rw [List.dropWhile_cons_of_pos (by simpa using hdue)] at he
      exact ih hsorted he
    · rw [List.dropWhile_cons_of_neg (by simpa using hdue)] at he
      rcases List.mem_cons.mp he with rfl | he
      · exact Int.not_le.mp hdue
      · have := hfirst e he
        omega

/-- Of events that are due with others behind them that are not, those that are due are the first
ones. -/
theorem filter_append_due {due later : List KeyEvent} {tick : Int}
    (hdue : ∀ e ∈ due, e.tick ≤ tick) (hlater : ∀ e ∈ later, tick < e.tick) :
    due = (due ++ later).filter (fun e => e.tick ≤ tick) ∧
      later = (due ++ later).filter fun e => tick < e.tick := by
  rw [List.filter_append, List.filter_append]
  constructor
  · rw [List.filter_eq_self.mpr fun e he => decide_eq_true (hdue e he),
      List.filter_eq_nil_iff.mpr fun e he => by simpa using hlater e he, List.append_nil]
  · rw [List.filter_eq_nil_iff.mpr fun e he => by simpa using hdue e he,
      List.filter_eq_self.mpr fun e he => decide_eq_true (hlater e he), List.nil_append]

/-- The events of a timeline with their places in the list. -/
def placed (events : List KeyEvent) : List (KeyEvent × Nat) :=
  events.zipIdx.mergeSort (List.zipIdxLE fun a b => a.tick ≤ b.tick)

theorem map_fst_placed (events : List KeyEvent) : (placed events).map Prod.fst = timeline events :=
  List.mergeSort_zipIdx

theorem mem_placed {events : List KeyEvent} {e : KeyEvent} {place : Nat} :
    (e, place) ∈ placed events ↔ events[place]? = some e := by
  rw [placed, List.mem_mergeSort, List.mk_mem_zipIdx_iff_getElem?]

/-- Of two events in a timeline the second has a later tick, or the same and a later place. -/
theorem pairwise_placed (events : List KeyEvent) :
    (placed events).Pairwise fun a b =>
      a.1.tick < b.1.tick ∨ a.1.tick = b.1.tick ∧ a.2 ≤ b.2 := by
  refine (List.pairwise_mergeSort (List.zipIdxLE_trans le_trans_tick)
    (List.zipIdxLE_total le_total_tick) events.zipIdx).imp fun {a b} h => ?_
  simp only [List.zipIdxLE, decide_eq_true_eq] at h
  split at h
  · split at h
    · have := of_decide_eq_true h
      omega
    · omega
  · contradiction

theorem getLast?_placed {events : List KeyEvent} {k : Key} {tick : Int} {e : KeyEvent}
    {place : Nat} :
    ((placed events).filter fun p => p.1.isDue k tick).getLast? = some (e, place) ↔
      Decides events k tick place e := by
  have hdecides : ∀ {e place},
      ((placed events).filter fun p => p.1.isDue k tick).getLast? = some (e, place) →
        Decides events k tick place e := by
    intro e place hlast
    obtain ⟨front, hfront⟩ := List.getLast?_eq_some_iff.mp hlast
    have hsorted := (pairwise_placed events).filter fun p => p.1.isDue k tick
    rw [hfront, List.pairwise_append] at hsorted
    have hmem : (e, place) ∈ (placed events).filter fun p => p.1.isDue k tick := by
      rw [hfront]
      exact List.mem_append_right _ List.mem_cons_self
    obtain ⟨hplaced, hdue⟩ := List.mem_filter.mp hmem
    obtain ⟨hown, hdue⟩ := isDue_iff.mp hdue
    refine ⟨mem_placed.mp hplaced, hown, hdue, fun other e' hfound hown' hdue' => ?_⟩
    have hmem' : (e', other) ∈ front ++ [(e, place)] := by
      rw [← hfront, List.mem_filter]
      exact ⟨mem_placed.mpr hfound, isDue_iff.mpr ⟨hown', hdue'⟩⟩
    rcases List.mem_append.mp hmem' with hbefore | hlast
    · exact hsorted.2.2 _ hbefore _ List.mem_cons_self
    · obtain ⟨rfl, rfl⟩ := Prod.mk.inj (List.mem_singleton.mp hlast)
      exact Or.inr ⟨rfl, Nat.le_refl _⟩
  refine ⟨hdecides, fun h => ?_⟩
  have hmem : (e, place) ∈ (placed events).filter fun p => p.1.isDue k tick :=
    List.mem_filter.mpr ⟨mem_placed.mpr h.found, isDue_iff.mpr ⟨h.own, h.due⟩⟩
  cases hlast : ((placed events).filter fun p => p.1.isDue k tick).getLast? with
  | none => simp [List.getLast?_eq_none_iff.mp hlast] at hmem
  | some p =>
    obtain ⟨rfl, rfl⟩ := (hdecides hlast).unique h
    rfl

/-- The last event in a timeline that is due for a key is the one that decides. -/
theorem getLast?_timeline {events : List KeyEvent} {k : Key} {tick : Int} {e : KeyEvent} :
    ((timeline events).filter (isDue k tick)).getLast? = some e ↔
      ∃ place, Decides events k tick place e := by
  have hplaced : (timeline events).filter (isDue k tick) =
      ((placed events).filter fun p => p.1.isDue k tick).map Prod.fst := by
    rw [← map_fst_placed, List.filter_map]
    rfl
  rw [hplaced, List.getLast?_map, Option.map_eq_some_iff]
  constructor
  · rintro ⟨p, hp, rfl⟩
    exact ⟨p.2, getLast?_placed.mp hp⟩
  · rintro ⟨place, h⟩
    exact ⟨(e, place), getLast?_placed.mpr h, rfl⟩

end KeyEvent

namespace Keypad

theorem deliver_append (keys : Keypad) (events more : List KeyEvent) :
    keys.deliver (events ++ more) = (keys.deliver events).deliver more :=
  List.foldl_append

/-- A key is as the last of its events left it. -/
theorem get_deliver (keys : Keypad) (events : List KeyEvent) (k : Key) :
    (keys.deliver events).get k =
      ((events.filter fun e => e.key = k).getLast?.map KeyEvent.pressed).getD (keys.get k) := by
  induction events generalizing keys with
  | nil => rfl
  | cons e events ih =>
    have hstep : keys.deliver (e :: events) = (keys.put e.key e.pressed).deliver events := rfl
    have hput : (keys.put e.key e.pressed).get k = if e.key = k then e.pressed else keys.get k :=
      getElem_put keys e.key k e.pressed
    rw [hstep, ih, hput]
    by_cases hkey : e.key = k
    · rw [if_pos hkey, List.filter_cons_of_pos (by simpa using hkey), List.getLast?_cons]
      cases (events.filter fun e => e.key = k).getLast? <;> rfl
    · rw [if_neg hkey, List.filter_cons_of_neg (by simpa using hkey)]

/-- After the events of a timeline that are due, a key is down if the event that decides pressed it,
or if it was down and none of its events is due. -/
theorem get_deliver_due (keys : Keypad) (events : List KeyEvent) (tick : Int) (k : Key) :
    (keys.deliver ((KeyEvent.timeline events).filter fun e => e.tick ≤ tick)).get k = true ↔
      (∃ place e, KeyEvent.Decides events k tick place e ∧ e.pressed = true) ∨
        (∀ e ∈ events, e.key = k → tick < e.tick) ∧ keys.get k = true := by
  have hboth : ((KeyEvent.timeline events).filter fun e => e.tick ≤ tick).filter
      (fun e => e.key = k) = (KeyEvent.timeline events).filter (KeyEvent.isDue k tick) := by
    rw [List.filter_filter]
    exact List.filter_congr fun e _ => (Bool.decide_and _ _).symm
  rw [get_deliver, hboth]
  cases hlast : ((KeyEvent.timeline events).filter (KeyEvent.isDue k tick)).getLast? with
  | none =>
    have hnone : ∀ e ∈ events, e.key = k → tick < e.tick := by
      intro e he hkey
      have hempty := List.getLast?_eq_none_iff.mp hlast
      have hnot := List.filter_eq_nil_iff.mp hempty e
        ((KeyEvent.timeline_perm events).mem_iff.mpr he)
      rw [KeyEvent.isDue_iff] at hnot
      exact Int.not_le.mp fun hdue => hnot ⟨hkey, hdue⟩
    constructor
    · intro hdown
      exact Or.inr ⟨hnone, hdown⟩
    · rintro (⟨place, e, h, -⟩ | ⟨-, hdown⟩)
      · have := hnone e (List.mem_of_getElem? h.found) h.own
        have := h.due
        omega
      · exact hdown
  | some e =>
    obtain ⟨place, h⟩ := KeyEvent.getLast?_timeline.mp hlast
    constructor
    · intro hpressed
      exact Or.inl ⟨place, e, h, hpressed⟩
    · rintro (⟨place', e', h', hpressed⟩ | ⟨hnone, -⟩)
      · obtain ⟨-, rfl⟩ := h.unique h'
        exact hpressed
      · have := hnone e (List.mem_of_getElem? h.found) h.own
        have := h.due
        omega

end Keypad

end Chip8
