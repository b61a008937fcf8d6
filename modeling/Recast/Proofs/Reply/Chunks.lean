/-
  Proofs/Reply/Chunks.lean --- an answer in pieces gives the code of the answer as a whole.

  However an answer is cut into pieces, the code taken out of the pieces is that of the whole
  answer.  Pieces are read until the closing fence is complete (`fenceEnd?` tells where that is),
  and what comes behind is not looked at (`ofChunks_disabled`).
-/
import Mathlib.Data.Nat.Find
import Recast.Proofs.Reply.Fence

set_option autoImplicit false

namespace Recast.Reply

open Text (linesWithEnds)
open Tracker (fence)

/-! ## The end of the closing fence -/

/-- The number of characters of an answer up to the third backtick of the closing fence. -/
def fenceEnd? (text : List Char) : Option Nat :=
  (openingLine? text).bind fun n =>
    (closingLine? {} ((linesWithEnds text).drop (n + 1))).map fun m =>
      ((linesWithEnds text).take (n + 1)).flatten.length +
        (upToFence ((linesWithEnds text).drop (n + 1)) m).length

/-- A state in which the fence is not closed yet comes before the text that closes it. -/
theorem Closes.closed_iff {t : Tracker} {head code text : List Char} (h : Closes t head code)
    (hleads : head <+: text) (k : Nat) :
    (t.run (text.take k)).phase = .closed ↔ head.length ≤ k := by
  obtain ⟨after, rfl⟩ := hleads
  constructor
  · intro hclosed
    refine Nat.not_lt.1 fun hk => ?_
    obtain ⟨init, rfl, hinit⟩ := h.before
    have hle : k ≤ init.length := by
      rw [List.length_append, List.length_singleton] at hk
      omega
    rw [List.append_assoc, List.take_append_of_le_length hle] at hclosed
    rw [← List.take_append_drop k init, Tracker.run_append, Tracker.run_of_closed hclosed,
      hclosed] at hinit
    cases hinit
  · intro hk
    rw [List.take_append, List.take_of_length_le hk, Tracker.run_append,
      Tracker.run_of_closed h.closed, h.closed]

/-- The tracker is done with the third backtick of the closing fence, and not before. -/
theorem closed_iff (text : List Char) :
    (fenceEnd? text = none → ((Tracker.seeking []).run text).phase ≠ .closed) ∧
      ∀ m, fenceEnd? text = some m → m ≤ text.length ∧
        ∀ k, ((Tracker.seeking []).run (text.take k)).phase = .closed ↔ m ≤ k := by
  obtain ⟨hprose, hfound⟩ := run_prose text []
  unfold fenceEnd?
  cases hopening : openingLine? text with
  | none =>
    rw [Option.bind_none]
    refine ⟨fun _ => ?_, nofun⟩
    rw [(hprose hopening).1]
    exact Phase.noConfusion
  | some n =>
    obtain ⟨⟨seen, hrun⟩, hlines⟩ := hfound n hopening
    have htext : ((linesWithEnds text).take (n + 1)).flatten ++
        ((linesWithEnds text).drop (n + 1)).flatten = text := by
      rw [← List.flatten_append, List.take_append_drop, Text.flatten_linesWithEnds]
    rw [Option.bind_some]
    generalize (linesWithEnds text).take (n + 1) = opening at hrun htext
    generalize (linesWithEnds text).drop (n + 1) = lines at hlines htext
    obtain ⟨hopen, hclosed⟩ := run_code lines.flatten seen [] {}
    rw [hlines] at hopen hclosed
    cases hclosing : closingLine? {} lines with
    | none =>
      rw [Option.map_none]
      refine ⟨fun _ => ?_, nofun⟩
      rw [← htext, Tracker.run_append, hrun, (hopen hclosing).1]
      exact Phase.noConfusion
    | some j =>
      rw [Option.map_some]
      refine ⟨nofun, fun m hm => ?_⟩
      obtain ⟨hcloses, hleads⟩ := hclosed j hclosing
      rw [← hrun] at hcloses
      have hleads : opening.flatten ++ upToFence lines j <+: text :=
        htext ▸ (List.prefix_append_right_inj _).2 hleads
      have hlength : m = (opening.flatten ++ upToFence lines j).length := by
        rw [List.length_append]
        exact (Option.some.inj hm).symm
      rw [hlength]
      exact ⟨hleads.length_le, hcloses.after.closed_iff hleads⟩

/-! ## Reading pieces -/

/-- An answer in pieces without an error. -/
def stream (chunks : List String) : List Chunk := chunks.map .ok

/-- The text of pieces. -/
def joined (chunks : List String) : List Char := chunks.flatMap String.toList

@[simp] theorem stream_cons (chunk : String) (chunks : List String) :
    stream (chunk :: chunks) = .ok chunk :: stream chunks := rfl

@[simp] theorem joined_nil : joined [] = [] := rfl

@[simp] theorem joined_cons (chunk : String) (chunks : List String) :
    joined (chunk :: chunks) = chunk.toList ++ joined chunks := rfl

theorem joined_append (chunks more : List String) :
    joined (chunks ++ more) = joined chunks ++ joined more := List.flatMap_append

theorem joined_take_leads (chunks : List String) (k : Nat) :
    joined (chunks.take k) <+: joined chunks := by
  conv_rhs => rw [← List.take_append_drop k chunks, joined_append]
  exact List.prefix_append ..

theorem stream_take_append (chunks : List String) (n : Nat) :
    stream (chunks.take n) ++ stream (chunks.drop n) = stream chunks := by
  rw [stream, stream, ← List.map_append, List.take_append_drop, stream]

theorem toList_join (chunks : List String) : (String.join chunks).toList = joined chunks :=
  String.toList_join

/-- A text that is long enough has a shortest run of pieces that is. -/
theorem exists_first_piece {chunks : List String} {m : Nat} (h : m ≤ (joined chunks).length) :
    ∃ n ≤ chunks.length, m ≤ (joined (chunks.take n)).length ∧
      ∀ k < n, (joined (chunks.take k)).length < m := by
  rw [← @List.take_length _ chunks] at h
  have hexists : ∃ k, m ≤ (joined (chunks.take k)).length := ⟨_, h⟩
  refine ⟨Nat.find hexists, Nat.find_min' hexists h, Nat.find_spec hexists, fun k hk => ?_⟩
  exact Nat.lt_of_not_le (Nat.find_min hexists hk)

/-- Pieces that do not complete a fence are all read. -/
theorem readChunks_open {t : Tracker} {chunks : List String} (count : Nat)
    (h : (t.run (joined chunks)).phase ≠ .closed) :
    readChunks .disabled t count (stream chunks) =
      (count + chunks.length,
        .ok ⟨String.ofList (t.run (joined chunks)).finish, count + chunks.length, false⟩) := by
  induction chunks generalizing t count with
  | nil => rfl
  | cons chunk chunks ih =>
    rw [joined_cons, Tracker.run_append] at h ⊢
    have hopen : ((t.run chunk.toList).phase == .closed) = false := by
      refine beq_eq_false_iff_ne.2 fun hclosed => h ?_
      rw [Tracker.run_of_closed hclosed, hclosed]
    rw [stream_cons, readChunks, feed_disabled, hopen]
    dsimp only
    rw [ih (count + 1) h, List.length_cons, Nat.add_right_comm, Nat.add_assoc]

/-- Pieces of which the last one completes a fence are read, and nothing behind them. -/
theorem readChunks_closed {t : Tracker} {chunks : List String} (count : Nat) (hne : chunks ≠ [])
    (hopen : ∀ k < chunks.length, (t.run (joined (chunks.take k))).phase ≠ .closed)
    (hclosed : (t.run (joined chunks)).phase = .closed) (rest : List Chunk) :
    readChunks .disabled t count (stream chunks ++ rest) =
      (count + chunks.length,
        .ok ⟨String.ofList (t.run (joined chunks)).finish, count + chunks.length, true⟩) := by
  induction chunks generalizing t count with
  | nil => exact absurd rfl hne
  | cons chunk chunks ih =>
    rw [joined_cons, Tracker.run_append] at hclosed ⊢
    rw [stream_cons, List.cons_append, readChunks, feed_disabled]
    by_cases hlast : chunks = []
    · subst hlast
      rw [joined_nil, Tracker.run_nil] at hclosed ⊢
      rw [hclosed]
      rfl
    · have hopen' (k : Nat) (hk : k < chunks.length) :
          ((t.run chunk.toList).run (joined (chunks.take k))).phase ≠ .closed := by
        have hlater := hopen (k + 1) (Nat.succ_lt_succ hk)
        rwa [List.take_succ_cons, joined_cons, Tracker.run_append] at hlater
      have hfirst : ((t.run chunk.toList).phase == .closed) = false :=
        beq_eq_false_iff_ne.2 (hopen' 0 (List.length_pos_iff.2 hlast))
      rw [hfirst]
      dsimp only
      rw [ih (count + 1) hlast hopen' hclosed, List.length_cons, Nat.add_right_comm, Nat.add_assoc]

/-- The code of an answer in pieces is that of the whole answer.  Without a closing fence all pieces
are read; otherwise the shortest run of pieces that holds the third backtick of the closing fence
is, whatever comes behind it. -/
theorem ofChunks_disabled (chunks : List String) :
    let code := (ofComplete (String.join chunks)).code
    match fenceEnd? (String.join chunks).toList with
    | none => ofChunks .disabled (stream chunks) =
        (chunks.length, .ok ⟨code, chunks.length, false⟩)
    | some m => ∃ n ≤ chunks.length, m ≤ (String.join (chunks.take n)).length ∧
        (∀ k < n, (String.join (chunks.take k)).length < m) ∧
        ofChunks .disabled (stream chunks) = (n, .ok ⟨code, n, true⟩) ∧
        ∀ rest, ofChunks .disabled (stream (chunks.take n) ++ rest) = (n, .ok ⟨code, n, true⟩) := by
  have hcode : (ofComplete (String.join chunks)).code =
      String.ofList ((Tracker.seeking []).run (joined chunks)).finish := by
    rw [ofComplete, codeOf_eq, toList_join]
  intro code
  obtain ⟨hopen, hclosed⟩ := closed_iff (joined chunks)
  rw [toList_join]
  cases hend : fenceEnd? (joined chunks) with
  | none =>
    have hread := readChunks_open 0 (hopen hend)
    rw [Nat.zero_add, ← hcode] at hread
    exact hread
  | some m =>
    obtain ⟨hm, hiff⟩ := hclosed m hend
    -- the pieces are read up to the first that reaches the end of the fence
    have htake (k : Nat) : joined (chunks.take k) =
        (joined chunks).take (joined (chunks.take k)).length :=
      List.prefix_iff_eq_take.1 (joined_take_leads chunks k)
    have hlength (k : Nat) : (String.join (chunks.take k)).length =
        (joined (chunks.take k)).length := by
      rw [← toList_join, String.length_toList]
    have hstate (k : Nat) : ((Tracker.seeking []).run (joined (chunks.take k))).phase = .closed ↔
        m ≤ (joined (chunks.take k)).length := by
      rw [← hiff, ← htake]
    obtain ⟨n, hall, hreached, hleast⟩ := exists_first_piece hm
    have hclosed := (hstate n).2 hreached
    have hsome : chunks.take n ≠ [] := by
      intro hnil
      rw [hnil] at hclosed
      exact Phase.noConfusion hclosed
    have hopen (k : Nat) (hk : k < (chunks.take n).length) :
        ((Tracker.seeking []).run (joined ((chunks.take n).take k))).phase ≠ .closed := by
      rw [List.length_take, Nat.min_eq_left hall] at hk
      rw [List.take_take, Nat.min_eq_left hk.le]
      exact fun hphase => Nat.not_lt.2 ((hstate k).1 hphase) (hleast k hk)
    -- what comes behind is not looked at
    have hfinish : (Tracker.seeking []).run (joined chunks) =
        (Tracker.seeking []).run (joined (chunks.take n)) := by
      rw [← Tracker.run_of_closed hclosed (joined (chunks.drop n)), ← Tracker.run_append,
        ← joined_append, List.take_append_drop]
    have hread (rest : List Chunk) : ofChunks .disabled (stream (chunks.take n) ++ rest) =
        (n, .ok ⟨code, n, true⟩) := by
      have hpieces := readChunks_closed 0 hsome hopen hclosed rest
      rwa [Nat.zero_add, List.length_take, Nat.min_eq_left hall, ← hfinish, ← hcode] at hpieces
    refine ⟨n, hall, ?_, fun k hk => ?_, ?_, hread⟩
    · rwa [hlength]
    · rw [hlength]
      exact hleast k hk
    · rw [← stream_take_append chunks n]
      exact hread _

end Recast.Reply
