import Mathlib.Tactic.TFAE
import RowContract.Proofs.Contract.Acceptance
import RowContract.Proofs.Sql.Parts

/-!
Reading statements by the rule of brackets: a name in brackets ends at a closing bracket that is not
followed by another one, and two of them stand for one of the name.  Columns are always read back;
a schema or a table is read back exactly if it has no closing bracket, and then every character of
the statement outside of names is one of its own words.
-/

namespace RowContract

namespace Sql

/-! ### The rule of brackets -/

inductive Lexeme where
  | char (c : Char)
  | name (s : String)
  | place
  deriving DecidableEq, Repr

namespace Lexeme

/-- Read a statement.  While a name is open, what was read of it is given; a statement may not end
before it is closed. -/
def read? : Option (List Char) → List Char → Option (List Lexeme)
  | none, [] => some []
  | none, c :: rest =>
    if c = '[' then read? (some []) rest
    else if c = '?' then (read? none rest).map (.place :: ·)
    else (read? none rest).map (.char c :: ·)
  | some _, [] => none
  | some own, [c] => if c = ']' then some [.name (String.ofList own)] else none
  | some own, c :: d :: rest =>
    if c = ']' then
      if d = ']' then read? (some (own ++ [']'])) rest
      else (read? none (d :: rest)).map (.name (String.ofList own) :: ·)
    else read? (some (own ++ [c])) (d :: rest)

def name? : Lexeme → Option String
  | .name s => some s
  | _ => none

def isPlace : Lexeme → Bool
  | .place => true
  | _ => false

end Lexeme

/-- The names of a statement in order, and the number of its places. -/
structure Contents where
  names : List String
  places : Nat
  deriving DecidableEq, Repr

def Contents.of (lexemes : List Lexeme) : Contents :=
  ⟨lexemes.filterMap Lexeme.name?, lexemes.countP Lexeme.isPlace⟩

def Part.lexeme : Part → Lexeme
  | .char c => .char c
  | .bare name => .name name
  | .quoted name => .name name
  | .place _ => .place

theorem escapeName_cons_of_ne {c : Char} (h : c ≠ ']') (cs : List Char) :
    escapeName (c :: cs) = c :: escapeName cs := by
  rw [escapeName_cons, if_neg h, List.singleton_append]

namespace Lexeme

variable {cs rest own : List Char} {lexemes : List Lexeme}

theorem read?_char {c : Char} (h : c ∉ marks) (rest : List Char) :
    read? none (c :: rest) = (read? none rest).map (.char c :: ·) := by
  simp only [marks, List.mem_cons, List.not_mem_nil, or_false, not_or] at h
  rw [read?, if_neg h.1, if_neg h.2.2.2]

/-- A name is closed by a bracket that is not followed by another one. -/
theorem read?_close (hrest : rest.head? ≠ some ']') (own : List Char) :
    read? (some own) (']' :: rest) = (read? none rest).map (.name (String.ofList own) :: ·) := by
  cases rest with
  | nil => rfl
  | cons d rest =>
      have hd : d ≠ ']' := fun h => hrest (congrArg some h)
      exact (if_pos rfl).trans (if_neg hd)

/-- What is in brackets with its closing brackets doubled is read as it was. -/
theorem read?_escapeName (hrest : rest.head? ≠ some ']') (own cs : List Char) :
    read? (some own) (escapeName cs ++ ']' :: rest) =
      (read? none rest).map (.name (String.ofList (own ++ cs)) :: ·) := by
  induction cs generalizing own with
  | nil => rw [List.append_nil]; exact read?_close hrest own
  | cons c r ih =>
      have hnext := ih (own ++ [c])
      rw [List.append_assoc, List.singleton_append] at hnext
      rw [escapeName_cons, ← hnext]
      by_cases hc : c = ']'
      · subst hc
        rfl
      · obtain ⟨d, more, hmore⟩ : ∃ d more, escapeName r ++ ']' :: rest = d :: more :=
          List.exists_cons_of_ne_nil (by simp)
        rw [if_neg hc, List.append_assoc, hmore, List.singleton_append, read?, if_neg hc]

/-- A name that is read stood in the text with its closing brackets doubled. -/
theorem exists_of_read?_some (h : read? (some own) cs = some lexemes) :
    ∃ name rest more, cs = escapeName name ++ ']' :: rest ∧ rest.head? ≠ some ']' ∧
      lexemes = .name (String.ofList (own ++ name)) :: more ∧ read? none rest = some more := by
  generalize hopen : some own = opened at h
  fun_induction read? opened cs generalizing own lexemes
  case case1 => cases hopen
  case case2 => cases hopen
  case case3 => cases hopen
  case case4 => cases hopen
  case case5 => cases h
  case case6 =>
      obtain rfl := Option.some.inj hopen
      obtain rfl := Option.some.inj h
      exact ⟨[], [], [], rfl, by decide, by rw [List.append_nil], rfl⟩
  case case7 => cases h
  case case8 rest ih =>
      obtain rfl := Option.some.inj hopen
      obtain ⟨name, rest', more, rfl, hrest, rfl, hmore⟩ := ih rfl h
      refine ⟨']' :: name, rest', more, rfl, hrest, ?_, hmore⟩
      rw [List.append_assoc, List.singleton_append]
  case case9 d rest hd _ =>
      obtain rfl := Option.some.inj hopen
      obtain ⟨more, hmore, rfl⟩ := Option.map_eq_some_iff.mp h
      refine ⟨[], d :: rest, more, rfl, fun heq => hd (Option.some.inj heq), ?_, hmore⟩
      rw [List.append_nil]
  case case10 c d rest hc ih =>
      obtain rfl := Option.some.inj hopen
      obtain ⟨name, rest', more, hcs, hrest, rfl, hmore⟩ := ih rfl h
      refine ⟨c :: name, rest', more, ?_, hrest, ?_, hmore⟩
      · rw [hcs, escapeName_cons_of_ne hc, List.cons_append]
      · rw [List.append_assoc, List.singleton_append]

end Lexeme

/-- Text that is the same with its closing brackets doubled has none. -/
theorem notMem_of_append_eq {cs rest rest' : List Char} (hrest : rest.head? ≠ some ']') {k : Nat}
    (h : cs ++ ']' :: rest = List.replicate k ']' ++ (escapeName cs ++ ']' :: rest')) :
    k = 0 ∧ ']' ∉ cs := by
  -- Each closing bracket leaves one more to be matched, and behind the text none follows.
  induction cs generalizing k with
  | nil =>
      cases k with
      | zero => exact ⟨rfl, List.not_mem_nil⟩
      | succ k =>
          rw [List.replicate_succ, List.cons_append, List.nil_append, List.cons.injEq] at h
          cases k <;> exact absurd (congrArg List.head? h.2) hrest
  | cons c r ih =>
      by_cases hc : c = ']'
      · subst hc
        have hmore : r ++ ']' :: rest =
            List.replicate (k + 1) ']' ++ (escapeName r ++ ']' :: rest') := by
          have hdouble : List.replicate k ']' ++ ']' :: ']' :: (escapeName r ++ ']' :: rest') =
              ']' :: (List.replicate (k + 1) ']' ++ (escapeName r ++ ']' :: rest')) := by
            rw [List.replicate_succ', List.append_assoc, ← List.singleton_append (x := ']'),
              ← List.append_assoc, ← List.replicate_succ', List.replicate_succ]
            rfl
          exact (List.cons.inj (h.trans hdouble)).2
        exact absurd (ih hmore).1 (Nat.succ_ne_zero k)
      · cases k with
        | zero =>
            rw [escapeName_cons_of_ne hc] at h
            obtain ⟨-, hr⟩ := ih (k := 0) (List.cons.inj h).2
            exact ⟨rfl, fun hmem => (List.mem_cons.mp hmem).elim (fun h => hc h.symm) hr⟩
        | succ k =>
            rw [List.replicate_succ] at h
            exact absurd (List.cons.inj h).1 hc

/-! ### Statements -/

namespace Part

/-- The part is no character that could open or close anything. -/
def Unmarked : Part → Prop
  | .char c => c ∉ marks
  | _ => True

/-- The part does not end its own brackets. -/
def Closed : Part → Prop
  | .bare name => ']' ∉ name.toList
  | _ => True

/-- A name without closing brackets is the same if they are doubled. -/
theorem text_bare {name : String} (h : ']' ∉ name.toList) :
    (Part.bare name).text = (Part.quoted name).text := by
  rw [text, text, escapeName_eq_self h]

theorem read?_quoted {rest : List Char} (hrest : rest.head? ≠ some ']') (name : String) :
    Lexeme.read? none ((Part.quoted name).text ++ rest) =
      (Lexeme.read? none rest).map (.name name :: ·) := by
  show Lexeme.read? (some []) (escapeName name.toList ++ [']'] ++ rest) = _
  rw [List.append_assoc, List.singleton_append, Lexeme.read?_escapeName hrest, List.nil_append,
    String.ofList_toList]

end Part

section
variable {parts : List Part} (hunmarked : ∀ part ∈ parts, part.Unmarked)
include hunmarked

theorem head?_text : (parts.flatMap Part.text).head? ≠ some ']' := by
  cases parts with
  | nil => exact nofun
  | cons part rest =>
      cases part with
      | char c =>
          intro h
          refine (List.forall_mem_cons.mp hunmarked).1 ?_
          rw [Option.some.inj h]
          decide
      | bare name => simp [Part.text]
      | quoted name => simp [Part.text]
      | place v => simp [Part.text]

/-- If no name ends its own brackets, every part is read as what it is. -/
theorem read?_parts (hclosed : ∀ part ∈ parts, part.Closed) :
    Lexeme.read? none (parts.flatMap Part.text) = some (parts.map Part.lexeme) := by
  induction parts with
  | nil => rfl
  | cons part rest ih =>
      obtain ⟨hpart, hrest⟩ := List.forall_mem_cons.mp hunmarked
      obtain ⟨hname, hnames⟩ := List.forall_mem_cons.mp hclosed
      have hread := ih hrest hnames
      have hhead := head?_text hrest
      rw [List.flatMap_cons, List.map_cons]
      cases part with
      | char c =>
          show Lexeme.read? none (c :: rest.flatMap Part.text) = _
          rw [Lexeme.read?_char hpart, hread]
          rfl
      | place v =>
          show (Lexeme.read? none (rest.flatMap Part.text)).map _ = _
          rw [hread]
          rfl
      | bare name =>
          rw [Part.text_bare hname, Part.read?_quoted hhead, hread]
          rfl
      | quoted name =>
          rw [Part.read?_quoted hhead, hread]
          rfl

/-- If the names that are read are those that were written, no name ends its own brackets. -/
theorem closed_of_read? {lexemes : List Lexeme}
    (h : Lexeme.read? none (parts.flatMap Part.text) = some lexemes)
    (hnames : lexemes.filterMap Lexeme.name? = (parts.map Part.lexeme).filterMap Lexeme.name?) :
    ∀ part ∈ parts, part.Closed := by
  induction parts generalizing lexemes with
  | nil => exact List.forall_mem_nil _
  | cons part rest ih =>
      obtain ⟨hpart, hrest⟩ := List.forall_mem_cons.mp hunmarked
      have hhead := head?_text hrest
      rw [List.flatMap_cons] at h
      cases part with
      | char c =>
          change Lexeme.read? none (c :: rest.flatMap Part.text) = _ at h
          rw [Lexeme.read?_char hpart] at h
          obtain ⟨more, hmore, rfl⟩ := Option.map_eq_some_iff.mp h
          exact List.forall_mem_cons.mpr ⟨trivial, ih hrest hmore hnames⟩
      | place v =>
          obtain ⟨more, hmore, rfl⟩ := Option.map_eq_some_iff.mp h
          exact List.forall_mem_cons.mpr ⟨trivial, ih hrest hmore hnames⟩
      | quoted name =>
          rw [Part.read?_quoted hhead] at h
          obtain ⟨more, hmore, rfl⟩ := Option.map_eq_some_iff.mp h
          exact List.forall_mem_cons.mpr ⟨trivial, ih hrest hmore (List.cons.inj hnames).2⟩
      | bare name =>
          change Lexeme.read? (some []) (name.toList ++ [']'] ++ _) = _ at h
          rw [List.append_assoc, List.singleton_append] at h
          obtain ⟨own, rest', more, htext, -, rfl, hmore⟩ := Lexeme.exists_of_read?_some h
          obtain ⟨hown, hothers⟩ := List.cons.inj hnames
          rw [List.nil_append] at hown
          have hsame : own = name.toList := by rw [← hown, String.toList_ofList]
          subst hsame
          obtain ⟨-, hclosed⟩ := notMem_of_append_eq hhead (k := 0) htext
          rw [escapeName_eq_self hclosed, List.append_cancel_left_eq, List.cons.injEq] at htext
          rw [← htext.2] at hmore
          exact List.forall_mem_cons.mpr ⟨hclosed, ih hrest hmore hothers⟩

/-- The names of a statement are read back, and then everything else is too, exactly if no name
ends its own brackets. -/
theorem read?_tfae {text : String} {contents : Contents}
    (htext : parts.flatMap Part.text = text.toList)
    (hcontents : Contents.of (parts.map Part.lexeme) = contents) {P : Prop}
    (hclosed : (∀ part ∈ parts, part.Closed) ↔ P) :
    [(Lexeme.read? none text.toList).map Contents.of = some contents,
      Lexeme.read? none text.toList = some (parts.map Part.lexeme), P].TFAE := by
  rw [← htext, ← hclosed, ← hcontents]
  tfae_have 2 → 1 := fun h => by rw [h]; rfl
  tfae_have 1 → 3 := fun h => by
    obtain ⟨lexemes, hread, hlexemes⟩ := Option.map_eq_some_iff.mp h
    exact closed_of_read? hunmarked hread (congrArg Contents.names hlexemes)
  tfae_have 3 → 2 := read?_parts hunmarked
  tfae_finish

end

theorem contents_parts (parts : List Part) :
    Contents.of (parts.map Part.lexeme) =
      ⟨parts.flatMap fun part => part.lexeme.name?.toList,
        (parts.flatMap Part.values).length⟩ := by
  have hplaces : (parts.map Part.lexeme).countP Lexeme.isPlace =
      (parts.flatMap Part.values).length := by
    induction parts with
    | nil => rfl
    | cons part rest ih =>
        rw [List.map_cons, List.countP_cons, ih, List.flatMap_cons, List.length_append,
          Nat.add_comm]
        cases part <;> rfl
  have hnames : (parts.map Part.lexeme).filterMap Lexeme.name? =
      parts.flatMap fun part => part.lexeme.name?.toList := by
    rw [List.filterMap_map, List.filterMap_eq_flatMap_toList]
    rfl
  rw [Contents.of, hnames, hplaces]

section
variable {schema table : String} {fields values keys : List (String × Value)}

/-- In the schema and the table no closing bracket is doubled. -/
theorem notMem_of_closed {parts : List Part} (hsub : qualifiedParts schema table ⊆ parts)
    (h : ∀ part ∈ parts, part.Closed) : ']' ∉ schema.toList ∧ ']' ∉ table.toList :=
  ⟨h (.bare schema) (hsub (by simp [qualifiedParts])),
    h (.bare table) (hsub (by simp [qualifiedParts]))⟩

theorem closed_insertParts_iff :
    (∀ part ∈ insertParts schema table fields, part.Closed) ↔
      ']' ∉ schema.toList ∧ ']' ∉ table.toList := by
  refine ⟨notMem_of_closed fun part hpart => by simp [insertParts, hpart], fun h => ?_⟩
  exact forall_mem_insertParts (fun _ _ => trivial) (fun _ => trivial) h.1 h.2 fun _ _ => trivial

theorem closed_updateParts_iff :
    (∀ part ∈ updateParts schema table values keys, part.Closed) ↔
      ']' ∉ schema.toList ∧ ']' ∉ table.toList := by
  refine ⟨notMem_of_closed fun part hpart => by simp [updateParts, hpart], fun h => ?_⟩
  exact forall_mem_updateParts (fun _ _ => trivial) (fun _ => trivial) h.1 h.2 (fun _ _ => trivial)
    fun _ _ => trivial

theorem unmarked_insertParts : ∀ part ∈ insertParts schema table fields, part.Unmarked :=
  forall_mem_insertParts (fun _ hc => hc) (fun _ => trivial) trivial trivial fun _ _ => trivial

theorem unmarked_updateParts : ∀ part ∈ updateParts schema table values keys, part.Unmarked :=
  forall_mem_updateParts (fun _ hc => hc) (fun _ => trivial) trivial trivial (fun _ _ => trivial)
    fun _ _ => trivial

theorem contents_insertParts :
    Contents.of ((insertParts schema table fields).map Part.lexeme) =
      ⟨schema :: table :: fields.map Prod.fst, fields.length⟩ := by
  rw [contents_parts, values_insertParts, List.length_map, flatMap_names_insertParts fun _ => rfl]
  simp [Part.lexeme, Lexeme.name?, List.map_eq_flatMap]

theorem contents_updateParts (qualifiedTable : String) :
    Contents.of ((updateParts schema table values keys).map Part.lexeme) =
      ⟨schema :: table :: (values ++ keys).map Prod.fst,
        (updateCommand qualifiedTable values keys).params.length⟩ := by
  rw [contents_parts, values_updateParts qualifiedTable, flatMap_names_updateParts fun _ => rfl]
  simp [Part.lexeme, Lexeme.name?, List.map_eq_flatMap]

end

end Sql

/-- The schema of an accepted contract has a plain name. -/
theorem Contract.notMem_targetSchema {document : Json} {c : Contract}
    (h : ofDocument document = .ok c) : ']' ∉ c.targetSchema.toList := by
  have hidentifier := (wellFormed_of_ofDocument h).targetSchema
  intro hmem
  cases hchars : c.targetSchema.toList with
  | nil => rw [hchars] at hmem; cases hmem
  | cons first rest =>
      rw [hchars] at hmem hidentifier
      obtain ⟨hfirst, hrest⟩ := (Bool.and_eq_true _ _).mp hidentifier
      rcases List.mem_cons.mp hmem with rfl | hmem
      · exact absurd hfirst (by decide)
      · exact absurd (List.all_eq_true.mp hrest _ hmem) (by decide)

namespace Sql

/-- An insert and an update are read back, with the schema, the table, the columns in order and a
place for each parameter, exactly if neither the schema nor the table has a closing bracket; then
everything outside of the names is read as it was written, too.  Columns may have any name, and the
schema of an accepted contract has no closing bracket. -/
theorem read?_statements_tfae (c : Contract) (table : String) {columns : List String}
    {row : List Value} (hrow : row.length = columns.length) (values keys : List (String × Value)) :
    [(Lexeme.read? none (insertText (c.qualifiedTable table) columns).toList).map Contents.of =
        some ⟨c.targetSchema :: table :: columns, row.length⟩,
      Lexeme.read? none (insertText (c.qualifiedTable table) columns).toList =
        some ((insertParts c.targetSchema table (columns.zip row)).map Part.lexeme),
      ']' ∉ c.targetSchema.toList ∧ ']' ∉ table.toList].TFAE ∧
    [(Lexeme.read? none (updateCommand (c.qualifiedTable table) values keys).text.toList).map
          Contents.of =
        some ⟨c.targetSchema :: table :: (values ++ keys).map Prod.fst,
          (updateCommand (c.qualifiedTable table) values keys).params.length⟩,
      Lexeme.read? none (updateCommand (c.qualifiedTable table) values keys).text.toList =
        some ((updateParts c.targetSchema table values keys).map Part.lexeme),
      ']' ∉ c.targetSchema.toList ∧ ']' ∉ table.toList].TFAE ∧
    ∀ document, Contract.ofDocument document = .ok c → ']' ∉ c.targetSchema.toList := by
  have hcolumns : (columns.zip row).map Prod.fst = columns :=
    List.map_fst_zip (Nat.le_of_eq hrow.symm)
  have hlength : (columns.zip row).length = row.length := by
    rw [List.length_zip, hrow, Nat.min_self]
  have htext := text_insertParts c table (columns.zip row)
  have hcontents :
      Contents.of ((insertParts c.targetSchema table (columns.zip row)).map Part.lexeme) = _ :=
    contents_insertParts
  rw [hcolumns] at htext hcontents
  rw [hlength] at hcontents
  exact ⟨read?_tfae unmarked_insertParts htext hcontents closed_insertParts_iff,
    read?_tfae unmarked_updateParts (text_updateParts c table values keys)
      (contents_updateParts _) closed_updateParts_iff,
    fun _ => Contract.notMem_targetSchema⟩

/-- Columns with brackets, commas and question marks in their names. -/
theorem read?_statements_tfae_markedColumns :
    (']' ∉ "dbo".toList ∧ ']' ∉ "scores?".toList) ∧
      (Lexeme.read? none
          "INSERT INTO [dbo].[scores?] ([a]]], [b, [c]) VALUES (?, ?)".toList).map Contents.of =
        some ⟨["dbo", "scores?", "a]", "b, [c"], 2⟩ ∧
      (Lexeme.read? none
          "UPDATE [dbo].[scores?] SET [a]]] = ? WHERE [b, [c] IS NULL".toList).map Contents.of =
        some ⟨["dbo", "scores?", "a]", "b, [c"], 1⟩ := by
  have hrow : [Value.int 1, .null].length = ["a]", "b, [c"].length := rfl
  have hclosed : ']' ∉ "dbo".toList ∧ ']' ∉ "scores?".toList := by decide
  obtain ⟨hinsert, hupdate, -⟩ := read?_statements_tfae { mappings := [] } "scores?" hrow
    [("a]", .int 1)] [("b, [c", .null)]
  exact ⟨hclosed, (hinsert.out 0 2).mpr hclosed, (hupdate.out 0 2).mpr hclosed⟩

def bracketed : Json :=
  .object [("mappings", .array
    [.object [("source_path", .string "/app/@id"), ("target_table", .string "a]b"),
      ("target_column", .string "id")]])]

/-- A table whose name ends its own brackets: the name that is read is another one, and the rest of
it has become text of the statement. -/
theorem bracketed_misread :
    ∃ c, Contract.ofDocument bracketed = .ok c ∧ "a]b" ∈ c.tables ∧
      (Lexeme.read? none (insertText (c.qualifiedTable "a]b") ["id"]).toList).map Contents.of =
        some ⟨["dbo", "a", "id"], 1⟩ ∧
      (Lexeme.read? none (insertText (c.qualifiedTable "a]b") ["id"]).toList).map Contents.of ≠
        some ⟨[c.targetSchema, "a]b", "id"], 1⟩ := by
  have hrun : ((Contract.ofDocument bracketed).toOption.any fun c =>
      decide ("a]b" ∈ c.tables ∧
        (Lexeme.read? none (insertText (c.qualifiedTable "a]b") ["id"]).toList).map Contents.of =
          some ⟨["dbo", "a", "id"], 1⟩ ∧
        (Lexeme.read? none (insertText (c.qualifiedTable "a]b") ["id"]).toList).map Contents.of ≠
          some ⟨[c.targetSchema, "a]b", "id"], 1⟩)) = true := by
    decide +kernel
  obtain ⟨c, hc, hrun⟩ := any_toOption_iff.mp hrun
  exact ⟨c, hc, of_decide_eq_true hrun⟩

end Sql

end RowContract
