import Mathlib.Tactic
import TaskQueue.Proofs.LogWindow
import TaskQueue.Proofs.NewestLines

/-!
# Lines in batches

The buffer of a producer lets the oldest lines go one by one as new ones come in, and a stored log
appends a whole batch before it drops what the window does not hold.  Both keep the newest lines and
count all of them, so they show the same as long as they got the same lines, however these were cut
into batches on either side.
-/

namespace TaskQueue.Log

/-- What a producer hands to its buffer at once. -/
inductive Feed where
  | line (text : String)
  | batch (lines : List String)

def Feed.lines : Feed → List String
  | .line text => [text]
  | .batch lines => lines

def Rolling.feed (log : Rolling) : Feed → Rolling
  | .line text => log.push text
  | .batch lines => log.extend lines

/-- Appends batches one after the other. -/
def Snapshot.pushAll? (s : Snapshot) (batches : List (List String)) (window : Nat) :
    Option Snapshot :=
  batches.foldlM (fun s lines => s.push? lines window) s

variable {window : Nat}

/-! ## The buffer -/

theorem Rolling.feed_eq_extend (log : Rolling) (f : Feed) : log.feed f = log.extend f.lines := by
  cases f with
  | line text => rfl
  | batch lines => rfl

theorem Rolling.foldl_feed (log : Rolling) (feeds : List Feed) :
    feeds.foldl Rolling.feed log = log.extend (feeds.flatMap Feed.lines) := by
  induction feeds generalizing log with
  | nil => rfl
  | cons f rest ih =>
      rw [List.foldl_cons, ih, feed_eq_extend, List.flatMap_cons]
      exact (List.foldl_append ..).symm

theorem Rolling.snapshot_feeds (window : Nat) (feeds : List Feed) :
    (feeds.foldl Rolling.feed (.empty window)).snapshot =
      ⟨newest (clampWindow window) (feeds.flatMap Feed.lines),
        (feeds.flatMap Feed.lines).length⟩ := by
  rw [foldl_feed, extend_empty]
  rfl

/-! ## The stored log -/

namespace Snapshot

/-- Two batches can be appended one after the other exactly if they can be appended at once. -/
theorem push_push (s : Snapshot) (xs ys : List String) (window : Nat) :
    ((s.push? xs window).bind fun next => next.push? ys window) = s.push? (xs ++ ys) window := by
  have hlength : (xs ++ ys).length = xs.length + ys.length := List.length_append
  have hnil : xs ++ ys = [] ↔ xs = [] ∧ ys = [] := List.append_eq_nil_iff
  unfold push?
  by_cases hxs : xs = [] ∨ s.seq + xs.length < counterBound
  · rw [if_pos hxs, Option.bind_some]
    -- Without `ys` the lines were counted with `xs` already.
    have hsame : (ys = [] ∨ s.seq + (xs ++ ys).length < counterBound) ↔
        (xs ++ ys = [] ∨ s.seq + (xs ++ ys).length < counterBound) := by
      rw [hnil, hlength]
      constructor
      · rintro (rfl | hcount)
        · exact hxs.imp (⟨·, rfl⟩) id
        · exact Or.inr hcount
      · exact Or.imp_left And.right
    dsimp only
    rw [newest_newest_append, List.append_assoc, Nat.add_assoc, ← hlength]
    exact if_congr hsame rfl rfl
  · have hnot : ¬(xs ++ ys = [] ∨ s.seq + (xs ++ ys).length < counterBound) := by
      rw [hnil, hlength]
      rintro (⟨hempty, -⟩ | hcount)
      · exact hxs (Or.inl hempty)
      · exact hxs (Or.inr (by omega))
    rw [if_neg hxs, if_neg hnot, Option.bind_none]

/-- At least one batch is needed: appending none leaves a log alone that an empty batch would trim. -/
theorem pushAll_cons (s : Snapshot) (batch : List String) (rest : List (List String))
    (window : Nat) : s.pushAll? (batch :: rest) window = s.push? (batch ++ rest.flatten) window := by
  induction rest generalizing s batch with
  | nil =>
      unfold pushAll?
      rw [List.flatten_nil, List.append_nil, List.foldlM_cons]
      exact bind_pure _
  | cons next rest ih =>
      rw [List.flatten_cons, ← push_push]
      exact congrArg _ (funext fun after => ih after next)

theorem pushAll_empty (batches : List (List String)) (window : Nat) :
    empty.pushAll? batches window = empty.push? batches.flatten window := by
  cases batches with
  | nil =>
      have hfits : ([] : List String).length < counterBound := by decide
      rw [List.flatten_nil, push_empty hfits, newest_of_length_le (Nat.zero_le _)]
      rfl
  | cons batch rest => exact pushAll_cons _ batch rest window

/-- What an addition leaves: the newest of all lines, and a counter that has gone on by those that
were added. -/
structure Rolled (s : Snapshot) (lines : List String) (window : Nat) (next : Snapshot) : Prop where
  suffix : next.lines <:+ s.lines ++ lines
  length : next.lines.length = min (max window 1) (s.lines ++ lines).length
  seq : next.seq = s.seq + lines.length

theorem rolled_of_push {s next : Snapshot} {lines : List String}
    (h : s.push? lines window = some next) : s.Rolled lines window next := by
  unfold push? at h
  split at h
  · cases h
    exact ⟨newest_suffix _ _, length_newest _ _, rfl⟩
  · cases h

/-- A log never shows more lines than it has counted, if it did not do so before. -/
theorem Rolled.consistent {s next : Snapshot} {lines : List String}
    (h : s.Rolled lines window next) (hs : s.isConsistent) : next.isConsistent := by
  have hlength := h.length
  have hseq := h.seq
  unfold isConsistent at hs ⊢
  rw [decide_eq_true_eq] at hs ⊢
  rw [List.length_append] at hlength
  omega

theorem oldest_of_consistent {s : Snapshot} (hs : s.isConsistent)
    (hcount : s.seq + 1 < counterBound) : s.oldest? = some (s.seq - s.lines.length + 1) := by
  unfold isConsistent at hs
  rw [decide_eq_true_eq] at hs
  unfold oldest?
  rw [if_pos hcount, Nat.sub_add_comm hs]

end Snapshot

/-- A buffer and an empty log that get the same lines show the same, the newest of them and their
number, however the lines are cut into batches on either side.  A log that has begun already may also
be given two batches as one; an addition to it never makes it show more lines than it has counted, and
as long as it does not, the number of its oldest line is known. -/
theorem batches_roll_alike (window : Nat) :
    (∀ (lines : List String) (feeds : List Feed) (batches : List (List String)),
        feeds.flatMap Feed.lines = lines → batches.flatten = lines → lines.length < counterBound →
        ∃ s, (feeds.foldl Rolling.feed (.empty window)).snapshot = s ∧
          Snapshot.empty.pushAll? batches window = some s ∧ s.lines <:+ lines ∧
          s.lines.length = min (max window 1) lines.length ∧ s.seq = lines.length) ∧
      (∀ (s : Snapshot) (xs ys : List String),
        ((s.push? xs window).bind fun next => next.push? ys window) = s.push? (xs ++ ys) window) ∧
      (∀ (s : Snapshot) (lines : List String), s.seq + lines.length < counterBound →
        ∃ next, s.push? lines window = some next ∧ s.Rolled lines window next ∧
          (s.isConsistent → next.isConsistent)) ∧
      ∀ s : Snapshot, s.isConsistent → s.seq + 1 < counterBound →
        s.oldest? = some (s.seq - s.lines.length + 1) := by
  refine ⟨?_, fun s xs ys => s.push_push xs ys window, ?_,
    fun s hs hcount => Snapshot.oldest_of_consistent hs hcount⟩
  · rintro lines feeds batches hfeeds rfl hfits
    have hcount : Snapshot.empty.seq + batches.flatten.length < counterBound :=
      (Nat.zero_add _).trans_lt hfits
    obtain ⟨s, hpush⟩ := Snapshot.push_isSome hcount window
    have hrolled := Snapshot.rolled_of_push hpush
    have hsame : (feeds.foldl Rolling.feed (.empty window)).snapshot = s := by
      rw [Rolling.snapshot_feeds, hfeeds]
      exact Option.some.inj ((push_empty hfits window).symm.trans hpush)
    exact ⟨s, hsame, (Snapshot.pushAll_empty batches window).trans hpush, hrolled.suffix,
      hrolled.length, hrolled.seq.trans (Nat.zero_add _)⟩
  · intro s lines hcount
    obtain ⟨next, hpush⟩ := Snapshot.push_isSome hcount window
    have hrolled := Snapshot.rolled_of_push hpush
    exact ⟨next, hpush, hrolled, hrolled.consistent⟩

/-- Four lines in a window of two, cut in two ways; and one line for a log that was kept in a larger
window. -/
theorem batches_roll_alike_cut :
    let feeds : List Feed := [.line "a", .batch ["b", "c"], .batch [], .line "d"]
    let batches : List (List String) := [["a", "b"], [], ["c", "d"]]
    let s : Snapshot := ⟨["p", "q", "r", "s"], 9⟩
    (∃ shown, (feeds.foldl Rolling.feed (.empty 2)).snapshot = shown ∧
        Snapshot.empty.pushAll? batches 2 = some shown ∧ shown = ⟨["c", "d"], 4⟩) ∧
      (∃ next, s.push? ["t"] 2 = some next ∧ next.isConsistent ∧ next = ⟨["s", "t"], 10⟩) ∧
      s.oldest? = some 6 := by
  intro feeds batches s
  obtain ⟨halike, -, hadds, holdest⟩ := batches_roll_alike 2
  obtain ⟨shown, hbuffer, hlog, -⟩ :=
    halike ["a", "b", "c", "d"] feeds batches rfl rfl (by decide)
  obtain ⟨next, hpush, -, hconsistent⟩ := hadds s ["t"] (by decide)
  refine ⟨⟨shown, hbuffer, hlog, hbuffer.symm.trans rfl⟩, ⟨next, hpush, hconsistent rfl, ?_⟩,
    holdest s rfl (by decide)⟩
  exact Option.some.inj (hpush.symm.trans rfl)

end TaskQueue.Log
