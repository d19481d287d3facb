import Mathlib.Data.List.Induction
import RowContract.Batch
import RowContract.Load.Memory

/-!
Records as they are sent.  Of records of one table some have the same key; a table in
which the last write counts has a row for the first record with each key, in the order
in which they were sent, with the values of the last record with that key.
-/

namespace RowContract

namespace Value

theorem same_refl (v : Value) : v.same v = true := by
  cases v <;> simp [same, Decimal.same]

end Value

/-- A record, with the columns of the batch that it is sent in. -/
structure Submission where
  columns : List String
  record : Record

def Batch.submissions (b : Batch) : List Submission := b.records.map fun r => ⟨b.columns, r⟩

namespace Submission

/-- Whether two records have the same values in the columns of the key. -/
def sameKey (key : List String) (a b : Submission) : Bool :=
  Memory.sameKey key a.record.columns b.record.columns

def firsts (key : List String) (all : List Submission) : List Submission :=
  all.foldl (fun firsts a => if firsts.any fun b => b.sameKey key a then firsts
    else firsts ++ [a]) []

def lastLike (key : List String) (all : List Submission) (a : Submission) : Submission :=
  ((all.filter fun b => a.sameKey key b).getLast?).getD a

variable (key : List String)

theorem sameKey_refl (a : Submission) : a.sameKey key a = true := by
  simp [sameKey, Memory.sameKey, Value.same_refl]

theorem firsts_concat (all : List Submission) (a : Submission) :
    firsts key (all ++ [a]) =
      if (firsts key all).any fun b => b.sameKey key a then firsts key all
      else firsts key all ++ [a] := by
  rw [firsts, List.foldl_append, ← firsts]
  rfl

theorem mem_of_mem_firsts {all : List Submission} {a : Submission} (h : a ∈ firsts key all) :
    a ∈ all := by
  induction all using List.reverseRecOn with
  | nil => cases h
  | append_singleton all b ih =>
      rw [firsts_concat] at h
      split at h
      · exact List.mem_append_left _ (ih h)
      · rcases List.mem_append.mp h with h | h
        · exact List.mem_append_left _ (ih h)
        · exact List.mem_append_right _ h

/-- No two of the first records have the same key. -/
theorem firsts_pairwise (all : List Submission) :
    (firsts key all).Pairwise fun a b => a.sameKey key b = false := by
  induction all using List.reverseRecOn with
  | nil => exact .nil
  | append_singleton all b ih =>
      rw [firsts_concat]
      split
      · exact ih
      · rename_i hany
        rw [List.any_eq_true, not_exists] at hany
        refine List.pairwise_append.mpr ⟨ih, List.pairwise_singleton _ _, fun a ha c hc => ?_⟩
        rw [List.mem_singleton.mp hc]
        exact Bool.eq_false_iff.mpr fun h => hany a ⟨ha, h⟩

/-- Every record has the key of a first one. -/
theorem exists_mem_firsts {all : List Submission} {a : Submission} (h : a ∈ all) :
    ∃ first ∈ firsts key all, first.sameKey key a = true := by
  induction all using List.reverseRecOn with
  | nil => cases h
  | append_singleton all b ih =>
      rw [firsts_concat]
      rcases List.mem_append.mp h with h | h
      · obtain ⟨first, hfirst, hkey⟩ := ih h
        split
        · exact ⟨first, hfirst, hkey⟩
        · exact ⟨first, List.mem_append_left _ hfirst, hkey⟩
      · rw [List.mem_singleton.mp h]
        split
        · rename_i hany
          exact List.any_eq_true.mp hany
        · exact ⟨b, by simp, sameKey_refl key b⟩

theorem lastLike_concat_of_same {a b : Submission} (h : a.sameKey key b = true)
    (all : List Submission) : lastLike key (all ++ [b]) a = b := by
  simp [lastLike, List.filter_append, h]

theorem lastLike_concat_of_not_same {a b : Submission} (h : a.sameKey key b = false)
    (all : List Submission) : lastLike key (all ++ [b]) a = lastLike key all a := by
  simp [lastLike, List.filter_append, h]

end Submission

end RowContract
