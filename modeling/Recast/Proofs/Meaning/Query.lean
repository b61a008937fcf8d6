/-
  Proofs/Meaning/Query.lean --- what a search finds.

  The records that a search considers are sorted by rank; records of one rank keep the order of their
  keys, in which they are stored (`ranked_before`).  The first ones are the best (`best_query`): as
  many as asked for if there are, and no other one comes before any of them.
-/
import Mathlib.Data.List.Nodup
import Recast.Meaning.Index
import Recast.Proofs.Meaning.Rank
import Recast.Proofs.Table

set_option autoImplicit false

namespace Recast.Meaning

/-- The order of what is found: by descending rank, and by ascending key among equal ranks. -/
def Scored.Before (s t : Scored) : Prop := t.rank < s.rank ∨ s.rank = t.rank ∧ s.key < t.key

/-- The best of scored records: as many as asked for if there are, in their order and each once, and
none that is left out comes before one of them. -/
structure Best (all : List Scored) (count : Nat) (found : List Scored) : Prop where
  length : found.length = min count all.length
  subset : ∀ s ∈ found, s ∈ all
  ordered : found.Pairwise Scored.Before
  apart : (found.map (·.key)).Nodup
  rest : ∀ s ∈ all, s ∉ found → ∀ t ∈ found, t.Before s

namespace Records

variable {r : Records} {vector : Vector} {count : Nat} {scope : Scope}

/-! ## What is considered -/

/-- What a search knows about a record. -/
def scoredOf (vector : Vector) (key : String) (record : Record) : Scored :=
  let score := cosine vector record.vector
  ⟨key, score, rank vector record.vector score, record.payload⟩

/-- A search considers the stored records in its scope, each with its cosine. -/
theorem mem_scored {s : Scored} : s ∈ r.scored vector scope ↔
    ∃ key record, r.items.get? key = some record ∧ scope.accepts record.payload = true ∧
      s = scoredOf vector key record := by
  simp only [scored, List.mem_map, List.mem_filter, Prod.exists, Table.get?_eq_some_iff]
  constructor
  · rintro ⟨key, record, ⟨hmem, haccepts⟩, rfl⟩
    exact ⟨key, record, hmem, haccepts, rfl⟩
  · rintro ⟨key, record, hmem, haccepts, rfl⟩
    exact ⟨key, record, ⟨hmem, haccepts⟩, rfl⟩

theorem length_scored (r : Records) (vector : Vector) (scope : Scope) :
    (r.scored vector scope).length =
      r.items.values.countP fun record => scope.accepts record.payload := by
  rw [scored, List.length_map, Table.values, List.countP_map, List.countP_eq_length_filter]
  rfl

theorem scored_ascending (r : Records) (vector : Vector) (scope : Scope) :
    (r.scored vector scope).Pairwise fun s t => s.key < t.key :=
  List.pairwise_map.2 (r.items.ascending.filter _)

/-! ## What is found -/

/-- All that a search considers, in the order in which it is found. -/
def ranked (r : Records) (vector : Vector) (scope : Scope) : List Scored :=
  (r.scored vector scope).mergeSort fun a b => b.rank ≤ a.rank

theorem ranked_perm (r : Records) (vector : Vector) (scope : Scope) :
    (r.ranked vector scope).Perm (r.scored vector scope) :=
  List.mergeSort_perm _ _

theorem rank_trans (a b c : Scored) (h : decide (b.rank ≤ a.rank) = true)
    (h' : decide (c.rank ≤ b.rank) = true) : decide (c.rank ≤ a.rank) = true :=
  decide_eq_true (Int.le_trans (of_decide_eq_true h') (of_decide_eq_true h))

theorem rank_total (a b : Scored) :
    (decide (b.rank ≤ a.rank) || decide (a.rank ≤ b.rank)) = true := by
  rw [Bool.or_eq_true, decide_eq_true_iff, decide_eq_true_iff]
  exact Int.le_total b.rank a.rank

/-- What has one rank keeps its order. -/
theorem filter_ranked (r : Records) (vector : Vector) (scope : Scope) (rank : Int) :
    (r.ranked vector scope).filter (·.rank = rank) =
      (r.scored vector scope).filter (·.rank = rank) := by
  have hsame : ((r.scored vector scope).filter (·.rank = rank)).Pairwise fun a b =>
      decide (b.rank ≤ a.rank) = true := by
    refine List.pairwise_of_forall_mem_list fun a ha b hb => decide_eq_true (Int.le_of_eq ?_)
    have hrank : a.rank = rank := by simpa using List.of_mem_filter ha
    have hrank' : b.rank = rank := by simpa using List.of_mem_filter hb
    rw [hrank, hrank']
  have hsublist := (List.sublist_mergeSort rank_trans rank_total hsame List.filter_sublist).filter
    fun s => decide (s.rank = rank)
  rw [List.filter_filter] at hsublist
  simp only [Bool.and_self] at hsublist
  exact (hsublist.eq_of_length ((r.ranked_perm vector scope).filter _).length_eq.symm).symm

theorem ranked_before (r : Records) (vector : Vector) (scope : Scope) :
    (r.ranked vector scope).Pairwise Scored.Before := by
  have hdescending : (r.ranked vector scope).Pairwise fun a b => decide (b.rank ≤ a.rank) = true :=
    List.pairwise_mergeSort rank_trans rank_total _
  rw [List.pairwise_iff_forall_sublist] at hdescending ⊢
  intro a b hpair
  rcases Int.lt_or_eq_of_le (of_decide_eq_true (hdescending hpair)) with hlt | heq
  · exact .inl hlt
  · -- Both stand in the same order among the stored records of their rank.
    have hsame := hpair.filter fun s => decide (s.rank = a.rank)
    rw [filter_ranked, List.filter_cons_of_pos (by simp), List.filter_cons_of_pos (by simp [heq]),
      List.filter_nil] at hsame
    have hkeys := (r.scored_ascending vector scope).filter fun s => decide (s.rank = a.rank)
    exact .inr ⟨heq.symm, List.pairwise_iff_forall_sublist.1 hkeys hsame⟩

/-- A search finds the best of what it considers. -/
theorem best_query (r : Records) (vector : Vector) (count : Nat) (scope : Scope) :
    Best (r.scored vector scope) count (r.query vector count scope) := by
  have hperm := r.ranked_perm vector scope
  have hbefore := r.ranked_before vector scope
  have hsplit : r.query vector count scope ++ (r.ranked vector scope).drop count =
      r.ranked vector scope := List.take_append_drop ..
  have hsublist : (r.query vector count scope).Sublist (r.ranked vector scope) :=
    List.take_sublist ..
  refine ⟨?_, fun s hs => hperm.mem_iff.1 (hsublist.subset hs), hbefore.sublist hsublist, ?_, ?_⟩
  · rw [← hperm.length_eq]
    exact List.length_take
  · have hkeys : ((r.scored vector scope).map (·.key)).Nodup :=
      List.pairwise_map.2 ((r.scored_ascending vector scope).imp fun hlt => Std.ne_of_lt hlt)
    exact (hsublist.map _).nodup ((hperm.map _).nodup_iff.2 hkeys)
  · intro s hs hout t ht
    have hdropped : s ∈ (r.ranked vector scope).drop count := by
      have hmem := hperm.mem_iff.2 hs
      rw [← hsplit] at hmem
      exact (List.mem_append.1 hmem).resolve_left hout
    rw [← hsplit] at hbefore
    exact (List.pairwise_append.1 hbefore).2.2 t ht s hdropped

end Records

/-! ## Places in other files -/

namespace Index

/-- A search for what is related finds places in other files, no more than asked for. -/
theorem related_spec (ix : Index) (path : Path) (text : String) (count : Nat) :
    (ix.related path text count).1.length ≤ count ∧
      ∀ m ∈ (ix.related path text count).1, path.same m.sourcePath = false := by
  unfold related search
  split
  · next found hsearch =>
    split at hsearch
    · cases hsearch
      exact ⟨Nat.zero_le _, nofun⟩
    · split at hsearch
      · cases hsearch
      · next vector _ =>
        cases hsearch
        have hbest := ix.records.best_query vector count { excluded := some path }
        refine ⟨?_, fun m hm => ?_⟩
        · rw [List.length_map, hbest.length]
          exact Nat.min_le_left _ _
        · obtain ⟨s, hs, rfl⟩ := List.mem_map.1 hm
          obtain ⟨key, record, -, haccepts, rfl⟩ := Records.mem_scored.1 (hbest.subset s hs)
          change path.same record.payload.sourcePath = false
          simpa [Scope.accepts] using haccepts
  · exact ⟨Nat.zero_le _, nofun⟩

end Index

/-- A search finds the best of the stored records in its scope by the cosine with the vector, in the
total order of scores and by key among equal scores; what is related to a file is found in other
files, and no more of it than asked for. -/
theorem query_best (r : Records) (vector : Vector) (count : Nat) (scope : Scope) :
    Best (r.scored vector scope) count (r.query vector count scope) ∧
    (∀ s, s ∈ r.scored vector scope ↔
      ∃ key record, r.items.get? key = some record ∧ scope.accepts record.payload = true ∧
        s = Records.scoredOf vector key record) ∧
    (r.scored vector scope).length =
      (r.items.values.countP fun record => scope.accepts record.payload) ∧
    (∀ s ∈ r.scored vector scope, ∀ t ∈ r.scored vector scope,
      Ranked s.score t.score s.rank t.rank) ∧
    ∀ (ix : Index) (path : Path) (text : String),
      (ix.related path text count).1.length ≤ count ∧
        ∀ m ∈ (ix.related path text count).1, path.same m.sourcePath = false := by
  refine ⟨r.best_query vector count scope, fun _ => Records.mem_scored,
    r.length_scored vector scope, fun s hs t ht => ?_, fun ix path text => ix.related_spec ..⟩
  obtain ⟨key, record, -, -, rfl⟩ := Records.mem_scored.1 hs
  obtain ⟨key', record', -, -, rfl⟩ := Records.mem_scored.1 ht
  exact ranked_rank ..

/-- Three records, two of them with one vector. -/
def alikeVectors : Records where
  space := embeddingName 2
  items := .ofList [("a", ⟨[1.0, 0.0], ⟨"A module.", .file, ⟨"/a.py"⟩, none, ∅⟩⟩),
    ("b", ⟨[0.0, 1.0], ⟨"Another module.", .file, ⟨"/b.py"⟩, none, ∅⟩⟩),
    ("c", ⟨[1.0, 0.0], ⟨"One more module.", .file, ⟨"/c.py"⟩, none, ∅⟩⟩)]

/-- Records with one vector have one rank, above that of the other one. -/
theorem query_best_alikeVectors :
    (alikeVectors.scored [1.0, 0.0] {}).map (·.rank) = [0x3f800000, 0, 0x3f800000] ∧
      Best (alikeVectors.scored [1.0, 0.0] {}) 2 (alikeVectors.query [1.0, 0.0] 2 {}) ∧
      ∃ s ∈ alikeVectors.scored [1.0, 0.0] {}, ∃ t ∈ alikeVectors.scored [1.0, 0.0] {},
        s.key = "b" ∧ t.key = "c" ∧ Ranked s.score t.score s.rank t.rank := by
  obtain ⟨hbest, hscored, -, hranked, -⟩ := query_best alikeVectors [1.0, 0.0] 2 {}
  have hsecond := (hscored _).2 ⟨"b", _, rfl, rfl, rfl⟩
  have hthird := (hscored _).2 ⟨"c", _, rfl, rfl, rfl⟩
  exact ⟨by decide +kernel, hbest, _, hsecond, _, hthird, rfl, rfl, hranked _ hsecond _ hthird⟩

end Recast.Meaning
