import Mathlib.Algebra.Order.Group.Defs
import Mathlib.Data.List.DropRight
import Mathlib.Tactic.Abel

/-!
# Events in a sliding window

A log of timed events, some of them bad.  No half-open window of a given width holds more than `n`
bad events in a row exactly when each bad event is preceded, within the width and after the last
good event, by fewer than `n` of them.
-/

namespace DatumSync.Foundation

variable {E T : Type*} [AddCommGroup T] [LinearOrder T]

/-- No window of width `w` holds more than `n` consecutive bad events. -/
def Bounded (time : E → T) (bad : E → Bool) (w : T) (n : ℕ) (log : List E) : Prop :=
  ∀ a : T, ∀ seg : List E, seg <:+: log →
    (∀ e ∈ seg, bad e = true ∧ a ≤ time e ∧ time e < a + w) → seg.length ≤ n

/-- The bad events since the last good one. -/
def streak (bad : E → Bool) (log : List E) : List E := log.rtakeWhile bad

/-- The events of a list less than `w` before `now`. -/
def recent (time : E → T) (w now : T) (events : List E) : List E :=
  events.filter fun e ↦ decide (now - time e < w)

variable {time : E → T} {bad : E → Bool} {w : T} {n : ℕ} {log : List E} {e : E}

theorem bounded_nil : Bounded time bad w n [] := by
  intro a seg hseg _
  rw [List.infix_nil.mp hseg]
  exact Nat.zero_le _

theorem mem_streak {x : E} (h : x ∈ streak bad log) : x ∈ log ∧ bad x = true :=
  ⟨(List.rtakeWhile_suffix bad log).mem h, List.mem_rtakeWhile_imp h⟩

theorem streak_concat_bad (h : bad e = true) : streak bad (log ++ [e]) = streak bad log ++ [e] :=
  List.rtakeWhile_concat_pos bad log e h

theorem streak_concat_good (h : bad e = false) : streak bad (log ++ [e]) = [] :=
  List.rtakeWhile_concat_neg bad log e (by rw [h]; exact Bool.false_ne_true)

/-- A suffix of bad events lies in the streak. -/
theorem suffix_streak {seg : List E} (hseg : seg <:+ log) (hbad : ∀ x ∈ seg, bad x = true) :
    seg <:+ streak bad log := by
  obtain ⟨front, rfl⟩ := hseg
  induction seg using List.reverseRecOn with
  | nil => exact List.nil_suffix
  | append_singleton rest x ih =>
    have hx : bad x = true := hbad x (by simp)
    rw [← List.append_assoc, streak_concat_bad hx]
    have hrest := ih fun y hy ↦ hbad y (List.mem_append_left _ hy)
    obtain ⟨pre, hpre⟩ := hrest
    exact ⟨pre, by rw [← hpre, List.append_assoc]⟩

variable [IsOrderedAddMonoid T]

/-- In a log in order of time the recent events come last. -/
theorem recent_suffix {events : List E}
    (hsorted : events.Pairwise fun x y ↦ time x ≤ time y) (now : T) :
    recent time w now events <:+ events := by
  induction events with
  | nil => exact List.nil_suffix
  | cons x rest ih =>
    rw [List.pairwise_cons] at hsorted
    by_cases hx : now - time x < w
    · have hall : ∀ y ∈ x :: rest, decide (now - time y < w) = true := by
        intro y hy
        rw [decide_eq_true_iff]
        rcases List.mem_cons.mp hy with rfl | hy
        · exact hx
        · calc
            now - time y ≤ now - time x := sub_le_sub_left (hsorted.1 y hy) now
            _ < w := hx
      have hself : recent time w now (x :: rest) = x :: rest := List.filter_eq_self.mpr hall
      exact ⟨[], hself⟩
    · rw [recent, List.filter_cons_of_neg (by simpa using hx)]
      exact (ih hsorted.2).trans (List.suffix_cons x rest)

/-- What is recent now was recent before. -/
theorem recent_recent {now later : T} (h : now ≤ later) (events : List E) :
    recent time w later (recent time w now events) = recent time w later events := by
  rw [recent, recent, recent, List.filter_filter]
  apply List.filter_congr
  intro e _
  rw [← Bool.decide_and, decide_eq_decide]
  exact ⟨And.left, fun he ↦ ⟨he, (sub_le_sub_right h (time e)).trans_lt he⟩⟩

omit [IsOrderedAddMonoid T] in
theorem recent_append (now : T) (events more : List E) :
    recent time w now (events ++ more) = recent time w now events ++ recent time w now more :=
  List.filter_append ..

/-- One more event adds to a half-open window no more than those that are recent then leave room
for. -/
theorem countP_window_concat {events : List E} {start : T}
    (hbefore : (events.countP fun x ↦ decide (start ≤ time x ∧ time x < start + w)) ≤ n)
    (hrecent : (recent time w (time e) events).length < n) :
    ((events ++ [e]).countP fun x ↦ decide (start ≤ time x ∧ time x < start + w)) ≤ n := by
  rw [List.countP_append]
  by_cases he : start ≤ time e ∧ time e < start + w
  · have hle : (events.countP fun x ↦ decide (start ≤ time x ∧ time x < start + w)) ≤
        (recent time w (time e) events).length := by
      rw [recent, ← List.countP_eq_length_filter]
      refine List.countP_mono_left fun x _ hx ↦ ?_
      rw [decide_eq_true_iff] at hx ⊢
      rw [sub_lt_iff_lt_add']
      exact he.2.trans_le (add_le_add_left hx.1 w)
    rw [List.countP_singleton, if_pos (decide_eq_true he)]
    omega
  · rw [List.countP_singleton, if_neg (by simpa using he)]
    exact hbefore

/-- One more event, later than the others: only a bad one can fill a window. -/
theorem bounded_concat (bad : E → Bool) (w : T) (hn : 0 < n)
    (hsorted : log.Pairwise fun x y ↦ time x ≤ time y)
    (hle : ∀ x ∈ log, time x ≤ time e) :
    Bounded time bad w n (log ++ [e]) ↔ Bounded time bad w n log ∧
      (bad e = true → (recent time w (time e) (streak bad log)).length < n) := by
  constructor
  · intro h
    refine ⟨fun a seg hseg ↦ h a seg (hseg.trans (List.infix_append' [] log [e])), fun hbad ↦ ?_⟩
    have hstreak : (streak bad log).Pairwise fun x y ↦ time x ≤ time y :=
      hsorted.sublist (List.rtakeWhile_suffix bad log).sublist
    have hsuffix := recent_suffix (w := w) hstreak (time e)
    cases hrecent : recent time w (time e) (streak bad log) with
    | nil => exact hn
    | cons first others =>
      rw [hrecent] at hsuffix
      have hlog : first :: others <:+ log := hsuffix.trans (List.rtakeWhile_suffix bad log)
      have hfirst : time e - time first < w := by
        have hmem : first ∈ recent time w (time e) (streak bad log) := hrecent ▸ List.mem_cons_self
        exact of_decide_eq_true (List.mem_filter.mp hmem).2
      have hlast : time e < time first + w := sub_lt_iff_lt_add'.mp hfirst
      have hsorted' : (first :: others).Pairwise fun x y ↦ time x ≤ time y :=
        hsorted.sublist hlog.sublist
      have hseg : first :: others ++ [e] <:+: log ++ [e] := by
        obtain ⟨front, hfront⟩ := hlog
        exact ⟨front, [], by rw [← hfront]; simp⟩
      have hcount := h (time first) _ hseg ?_
      · rw [List.length_append, List.length_singleton] at hcount
        exact hcount
      · intro x hx
        rcases List.mem_append.mp hx with hx | hx
        · have hbefore : time first ≤ time x := by
            rcases List.mem_cons.mp hx with rfl | hx
            · exact le_rfl
            · exact (List.pairwise_cons.mp hsorted').1 x hx
          refine ⟨(mem_streak (hsuffix.mem hx)).2, hbefore, ?_⟩
          calc
            time x ≤ time e := hle x (hlog.mem hx)
            _ < time first + w := hlast
        · rw [List.mem_singleton.mp hx]
          exact ⟨hbad, hle first (hlog.mem List.mem_cons_self), hlast⟩
  · rintro ⟨hlog, hlast⟩ a seg hseg hwindow
    rcases List.infix_concat_iff.mp hseg with hsuffix | hinner
    · rcases List.suffix_concat_iff.mp hsuffix with rfl | ⟨init, rfl, hinit⟩
      · exact Nat.zero_le _
      · have he := hwindow e (by simp)
        have hbad : ∀ x ∈ init, bad x = true := fun x hx ↦
          (hwindow x (List.mem_append_left _ hx)).1
        have hsub : init.Sublist (recent time w (time e) (streak bad log)) := by
          have hfilter : init.filter (fun x ↦ decide (time e - time x < w)) = init := by
            apply List.filter_eq_self.mpr
            intro x hx
            rw [decide_eq_true_iff, sub_lt_iff_lt_add']
            calc
              time e < a + w := he.2.2
              _ ≤ time x + w := add_le_add_left (hwindow x (List.mem_append_left _ hx)).2.1 w
          rw [← hfilter]
          exact (suffix_streak hinit hbad).sublist.filter _
        rw [List.length_append, List.length_singleton]
        exact hsub.length_le.trans_lt (hlast he.1)
    · exact hlog a seg hinner hwindow

end DatumSync.Foundation
