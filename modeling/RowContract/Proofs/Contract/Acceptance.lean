import RowContract.Contract.Loading
import RowContract.Proofs.Contract.WellFormed

/-!
What is known of an accepted contract.  It is well formed, since its document has passed the schema,
and its mappings have passed their checks: the column of a link has a name, and so has the column of
a mapping that appends no rows.
-/

namespace RowContract

namespace Contract

variable {document : Json} {c : Contract}

/-- An accepted contract is what is read from a document that passes the schema, prepared. -/
theorem prepare_of_ofDocument (h : ofDocument document = .ok c) :
    ∃ read, Schema.contract document = [] ∧ Contract.ofJson document = .ok read ∧
      read.prepare = .ok c := by
  unfold ofDocument at h
  split at h
  next hschema =>
    obtain ⟨read, hread, h⟩ := bind_eq_ok h
    exact ⟨read, hschema, mapError_eq_ok hread, h⟩
  next => cases h

/-- A prepared contract has passed its checks, and its expressions are compiled. -/
theorem prepare_eq_ok {read : Contract} (h : read.prepare = .ok c) :
    read.check = .ok () ∧ compileAll [] read.mappings = .ok c.expressions ∧
      c = { read with expressions := c.expressions } := by
  obtain ⟨_, hcheck, h⟩ := bind_eq_ok h
  obtain ⟨expressions, hcompile, h⟩ := bind_eq_ok h
  obtain rfl := Except.ok.inj h
  exact ⟨hcheck, hcompile, rfl⟩

/-- An accepted contract is what is read from a document that passes the schema; it has passed its
checks, and its expressions are compiled. -/
theorem ofDocument_eq_ok (h : ofDocument document = .ok c) :
    ∃ (read : Contract) (expressions : Fields Expression), Schema.contract document = [] ∧
      Contract.ofJson document = .ok read ∧ read.check = .ok () ∧
      c = { read with expressions := expressions } := by
  obtain ⟨read, hschema, hread, hprepare⟩ := prepare_of_ofDocument h
  obtain ⟨hcheck, -, hc⟩ := prepare_eq_ok hprepare
  exact ⟨read, c.expressions, hschema, hread, hcheck, hc⟩

/-- An accepted contract is well formed. -/
theorem wellFormed_of_ofDocument (h : ofDocument document = .ok c) : c.WellFormed := by
  obtain ⟨read, expressions, hschema, hread, -, rfl⟩ := ofDocument_eq_ok h
  exact { wellFormed_of_ofJson hschema hread with }

/-- The links of an accepted contract end in columns with names. -/
theorem foreignKeyColumn_ne_empty (h : ofDocument document = .ok c) {r : Relationship}
    (hr : r ∈ c.relationships) : r.foreignKeyColumn ≠ "" :=
  ((wellFormed_of_ofDocument h).relationships r hr).foreignKeyColumn

/-- A mapping of an accepted contract that appends no rows has a column to fill. -/
theorem targetColumn_ne_empty (h : ofDocument document = .ok c) {m : FieldMapping}
    (hm : m ∈ c.mappings) (hrows : m.createsRow = false) : m.targetColumn ≠ "" := by
  obtain ⟨read, expressions, -, -, hcheck, rfl⟩ := ofDocument_eq_ok h
  obtain ⟨_, htarget, -⟩ := bind_eq_ok (forM_eq_ok hcheck m hm)
  intro hempty
  have hnone : m.chain.find? Operation.createsRow = none :=
    Option.isNone_iff_eq_none.mp (Option.isSome_eq_false_iff.mp hrows)
  have hfilter : m.chain.filter Operation.createsRow = [] := by
    rw [List.filter_eq_nil_iff]
    exact List.find?_eq_none.mp hnone
  rw [checkTarget, hfilter, hempty] at htarget
  cases htarget

end Contract

end RowContract
