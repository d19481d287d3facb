import RowContract.Contract.Basic
import RowContract.Proofs.Sql.Rendering

/-!
What statements are made of: words, names in brackets, and places of values.  The name of a schema
or a table stands in its brackets as it is; in the name of a column closing brackets are doubled.
Each place carries its value, so that the text of a statement, its parameters and its line with the
literals are three readings of one list of parts.
-/

namespace RowContract.Sql

inductive Part where
  /-- A character of the words of the statement. -/
  | char (c : Char)
  /-- A name that stands in brackets as it is. -/
  | bare (name : String)
  /-- A name that stands in brackets with its closing brackets doubled. -/
  | quoted (name : String)
  /-- The place of a value. -/
  | place (v : Value)

namespace Part

def text : Part → List Char
  | .char c => [c]
  | .bare name => '[' :: (name.toList ++ [']'])
  | .quoted name => '[' :: (escapeName name.toList ++ [']'])
  | .place _ => ['?']

/-- The part with the literal of its value, if it is a place. -/
def line : Part → List Char
  | .place v => v.sqlLiteral.toList
  | part => part.text

def values : Part → List Value
  | .place v => [v]
  | _ => []

end Part

def words (s : String) : List Part := s.toList.map .char

/-- Parts of a list, with a comma and a blank between two of them. -/
def listedParts (items : List (List Part)) : List Part := (words ", ").intercalate items

def qualifiedParts (schema table : String) : List Part := [.bare schema, .char '.', .bare table]

def assignmentParts (field : String × Value) : List Part :=
  .quoted field.1 :: (words " = " ++ [.place field.2])

def conditionParts (key : String × Value) : List Part :=
  if key.2.isNull then .quoted key.1 :: words " IS NULL" else assignmentParts key

def insertParts (schema table : String) (fields : List (String × Value)) : List Part :=
  words "INSERT INTO " ++ qualifiedParts schema table ++ words " (" ++
    listedParts (fields.map fun field => [.quoted field.1]) ++ words ") VALUES (" ++
    listedParts (fields.map fun field => [.place field.2]) ++ words ")"

def updateParts (schema table : String) (values keys : List (String × Value)) : List Part :=
  words "UPDATE " ++ qualifiedParts schema table ++ words " SET " ++
    listedParts (values.map assignmentParts) ++ words " WHERE " ++
    (words " AND ").intercalate (keys.map conditionParts)

/-- The statement of an update with the literals of its values: each column is set to its value, and
a key that is missing has no value to be compared with. -/
def updateLine (qualifiedTable : String) (values keys : List (String × Value)) : String :=
  "UPDATE " ++ qualifiedTable ++ " SET " ++
    listed (values.map fun v => quoteName v.1 ++ " = " ++ v.2.sqlLiteral) ++ " WHERE " ++
    " AND ".intercalate (keys.map fun key =>
      if key.2.isNull then quoteName key.1 ++ " IS NULL"
      else quoteName key.1 ++ " = " ++ key.2.sqlLiteral)

/-! ### Three readings of the parts -/

theorem flatMap_intercalate {α β : Type} (f : α → List β) (sep : List α) (items : List (List α)) :
    (sep.intercalate items).flatMap f =
      (sep.flatMap f).intercalate (items.map fun item => item.flatMap f) := by
  induction items with
  | nil => rfl
  | cons first rest ih =>
      cases rest with
      | nil => simp
      | cons second rest =>
          rw [List.intercalate_cons_cons, List.map_cons, List.map_cons, List.intercalate_cons_cons,
            List.flatMap_append, List.flatMap_append, ih, List.map_cons]

theorem escapeName_cons (c : Char) (cs : List Char) :
    escapeName (c :: cs) = (if c = ']' then [']', ']'] else [c]) ++ escapeName cs := rfl

theorem toList_quoteName_eq (name : String) :
    (quoteName name).toList = '[' :: (escapeName name.toList ++ [']']) := by
  rw [quoteName, String.toList_ofList]
  rfl

theorem toList_qualifiedTable (c : Contract) (table : String) :
    (c.qualifiedTable table).toList =
      '[' :: (c.targetSchema.toList ++ [']']) ++ '.' :: '[' :: (table.toList ++ [']']) := by
  simp [Contract.qualifiedTable]

section
variable {f : Part → List Char} (hchar : ∀ c, f (.char c) = [c])
  (hbare : ∀ name, f (.bare name) = '[' :: (name.toList ++ [']']))
  (hquoted : ∀ name, f (.quoted name) = (quoteName name).toList)

include hchar in
theorem flatMap_words (s : String) : (words s).flatMap f = s.toList := by
  rw [words, List.flatMap_map]
  simp only [hchar]
  exact List.flatMap_singleton' s.toList

include hchar hbare in
theorem flatMap_qualifiedParts (c : Contract) (table : String) :
    (qualifiedParts c.targetSchema table).flatMap f = (c.qualifiedTable table).toList := by
  simp [qualifiedParts, toList_qualifiedTable, hchar, hbare]

include hchar in
theorem flatMap_listedParts (items : List (List Part)) :
    (listedParts items).flatMap f =
      ", ".toList.intercalate (items.map fun item => item.flatMap f) := by
  rw [listedParts, flatMap_intercalate, flatMap_words hchar]

include hchar hquoted in
theorem flatMap_assignmentParts (field : String × Value) :
    (assignmentParts field).flatMap f =
      (quoteName field.1).toList ++ (" = ".toList ++ f (.place field.2)) := by
  rw [assignmentParts, List.flatMap_cons, List.flatMap_append, flatMap_words hchar,
    List.flatMap_singleton, hquoted]

include hchar hquoted in
theorem flatMap_conditionParts (key : String × Value) :
    (conditionParts key).flatMap f =
      if key.2.isNull then (quoteName key.1).toList ++ " IS NULL".toList
      else (quoteName key.1).toList ++ (" = ".toList ++ f (.place key.2)) := by
  unfold conditionParts
  split
  · rw [List.flatMap_cons, flatMap_words hchar, hquoted]
  · exact flatMap_assignmentParts hchar hquoted key

include hchar hbare hquoted in
theorem flatMap_insertParts (c : Contract) (table : String) (fields : List (String × Value)) :
    (insertParts c.targetSchema table fields).flatMap f =
      "INSERT INTO ".toList ++ (c.qualifiedTable table).toList ++ " (".toList ++
        ", ".toList.intercalate (fields.map fun field => (quoteName field.1).toList) ++
        ") VALUES (".toList ++
        ", ".toList.intercalate (fields.map fun field => f (.place field.2)) ++ ")".toList := by
  simp only [insertParts, List.flatMap_append, flatMap_words hchar,
    flatMap_qualifiedParts hchar hbare, flatMap_listedParts hchar, List.map_map,
    Function.comp_def, List.flatMap_singleton, hquoted]

include hchar hbare hquoted in
theorem flatMap_updateParts (c : Contract) (table : String) (values keys : List (String × Value)) :
    (updateParts c.targetSchema table values keys).flatMap f =
      "UPDATE ".toList ++ (c.qualifiedTable table).toList ++ " SET ".toList ++
        ", ".toList.intercalate (values.map fun v =>
          (quoteName v.1).toList ++ (" = ".toList ++ f (.place v.2))) ++
        " WHERE ".toList ++
        " AND ".toList.intercalate (keys.map fun key =>
          if key.2.isNull then (quoteName key.1).toList ++ " IS NULL".toList
          else (quoteName key.1).toList ++ (" = ".toList ++ f (.place key.2))) := by
  simp only [updateParts, List.flatMap_append, flatMap_words hchar,
    flatMap_qualifiedParts hchar hbare, flatMap_listedParts hchar, flatMap_intercalate,
    List.map_map, Function.comp_def, flatMap_assignmentParts hchar hquoted,
    flatMap_conditionParts hchar hquoted]

end

section
variable (c : Contract) (table : String)

theorem text_insertParts (fields : List (String × Value)) :
    (insertParts c.targetSchema table fields).flatMap Part.text =
      (insertText (c.qualifiedTable table) (fields.map Prod.fst)).toList := by
  rw [flatMap_insertParts (fun _ => rfl) (fun _ => rfl) fun name => (toList_quoteName_eq name).symm]
  unfold insertText listed
  simp only [String.toList_append, String.toList_intercalate, List.map_map,
    Function.comp_def]
  rfl

theorem line_insertParts (fields : List (String × Value)) :
    (insertParts c.targetSchema table fields).flatMap Part.line =
      (insertLine (c.qualifiedTable table) (fields.map Prod.fst) (fields.map Prod.snd)).toList := by
  rw [flatMap_insertParts (fun _ => rfl) (fun _ => rfl) fun name => (toList_quoteName_eq name).symm]
  unfold insertLine listed
  simp only [String.toList_append, String.toList_intercalate, List.map_map,
    Function.comp_def]
  rfl

theorem text_updateParts (values keys : List (String × Value)) :
    (updateParts c.targetSchema table values keys).flatMap Part.text =
      (updateCommand (c.qualifiedTable table) values keys).text.toList := by
  rw [flatMap_updateParts (fun _ => rfl) (fun _ => rfl) fun name => (toList_quoteName_eq name).symm]
  unfold updateCommand listed
  simp only [String.toList_append, String.toList_intercalate, List.map_map,
    Function.comp_def, assignment, condition, apply_ite String.toList]
  rfl

theorem line_updateParts (values keys : List (String × Value)) :
    (updateParts c.targetSchema table values keys).flatMap Part.line =
      (updateLine (c.qualifiedTable table) values keys).toList := by
  rw [flatMap_updateParts (fun _ => rfl) (fun _ => rfl) fun name => (toList_quoteName_eq name).symm]
  unfold updateLine listed
  simp only [String.toList_append, String.toList_intercalate, List.map_map,
    Function.comp_def, apply_ite String.toList, List.append_assoc]
  rfl

end

/-! ### What is read from names and places alone -/

section
variable {α : Type} {f : Part → List α} (hchar : ∀ c, f (.char c) = [])
include hchar

theorem flatMap_words_eq_nil (s : String) : (words s).flatMap f = [] := by
  rw [words, List.flatMap_map]
  exact List.flatMap_eq_nil_iff.mpr fun c _ => hchar c

/-- What stands between items adds nothing. -/
theorem flatMap_intercalate_words (s : String) (items : List (List Part)) :
    ((words s).intercalate items).flatMap f = items.flatMap fun item => item.flatMap f := by
  induction items with
  | nil => rfl
  | cons first rest ih =>
      cases rest with
      | nil => simp
      | cons second rest =>
          rw [List.intercalate_cons_cons, List.flatMap_append, List.flatMap_append,
            flatMap_words_eq_nil hchar, ih, List.append_nil]
          rfl

theorem flatMap_names_insertParts (schema table : String) (fields : List (String × Value)) :
    (insertParts schema table fields).flatMap f =
      f (.bare schema) ++ f (.bare table) ++ (fields.flatMap fun field => f (.quoted field.1)) ++
        fields.flatMap fun field => f (.place field.2) := by
  simp only [insertParts, qualifiedParts, listedParts, List.flatMap_append,
    flatMap_words_eq_nil hchar, flatMap_intercalate_words hchar, List.flatMap_map]
  simp [hchar]

theorem flatMap_names_updateParts (schema table : String) (values keys : List (String × Value)) :
    (updateParts schema table values keys).flatMap f =
      f (.bare schema) ++ f (.bare table) ++
        (values.flatMap fun value => f (.quoted value.1) ++ f (.place value.2)) ++
        keys.flatMap fun key =>
          f (.quoted key.1) ++ if key.2.isNull then [] else f (.place key.2) := by
  have hassignment (field : String × Value) :
      (assignmentParts field).flatMap f = f (.quoted field.1) ++ f (.place field.2) := by
    simp [assignmentParts, flatMap_words_eq_nil hchar]
  have hcondition (key : String × Value) :
      (conditionParts key).flatMap f =
        f (.quoted key.1) ++ if key.2.isNull then [] else f (.place key.2) := by
    unfold conditionParts
    split
    · simp [flatMap_words_eq_nil hchar]
    · exact hassignment key
  simp only [updateParts, qualifiedParts, listedParts, List.flatMap_append,
    flatMap_words_eq_nil hchar, flatMap_intercalate_words hchar, List.flatMap_map, hassignment,
    hcondition]
  simp [hchar]

end

theorem values_insertParts (schema table : String) (fields : List (String × Value)) :
    (insertParts schema table fields).flatMap Part.values = fields.map Prod.snd := by
  rw [flatMap_names_insertParts fun _ => rfl]
  simp [Part.values, List.map_eq_flatMap]

theorem values_updateParts (qualifiedTable schema table : String)
    (values keys : List (String × Value)) :
    (updateParts schema table values keys).flatMap Part.values =
      (updateCommand qualifiedTable values keys).params := by
  have hkeys : (keys.flatMap fun key => if key.2.isNull then [] else [key.2]) =
      (keys.map Prod.snd).filter fun v => !v.isNull := by
    rw [List.filter_map]
    induction keys with
    | nil => rfl
    | cons key rest ih =>
        cases hnull : key.2.isNull <;> simp [hnull, ih]
  rw [flatMap_names_updateParts fun _ => rfl]
  simp [Part.values, updateCommand, hkeys, List.map_eq_flatMap]

/-! ### What holds of all parts -/

theorem forall_mem_intercalate {α : Type} {P : α → Prop} {sep : List α} {items : List (List α)}
    (hsep : ∀ a ∈ sep, P a) (hitems : ∀ item ∈ items, ∀ a ∈ item, P a) :
    ∀ a ∈ sep.intercalate items, P a := by
  induction items with
  | nil => exact List.forall_mem_nil _
  | cons first rest ih =>
      obtain ⟨hfirst, hrest⟩ := List.forall_mem_cons.mp hitems
      cases rest with
      | nil => rwa [List.intercalate_singleton]
      | cons second rest =>
          rw [List.intercalate_cons_cons]
          exact List.forall_mem_append.mpr ⟨List.forall_mem_append.mpr ⟨hfirst, hsep⟩, ih hrest⟩

section
variable {P : Part → Prop} (hchar : ∀ c, c ∉ marks → P (.char c)) (hplace : ∀ v, P (.place v))

include hchar in
/-- The words of the statements have no marks. -/
theorem forall_mem_words {s : String} (h : (s.toList.any marks.contains) = false) :
    ∀ part ∈ words s, P part := by
  refine List.forall_mem_map.mpr fun c hc => hchar c fun hmark => ?_
  exact List.any_eq_false.mp h c hc (List.contains_iff_mem.mpr hmark)

include hchar hplace in
theorem forall_mem_assignmentParts {field : String × Value} (hname : P (.quoted field.1)) :
    ∀ part ∈ assignmentParts field, P part :=
  List.forall_mem_cons.mpr ⟨hname, List.forall_mem_append.mpr
    ⟨forall_mem_words hchar (by decide), List.forall_mem_singleton.mpr (hplace field.2)⟩⟩

include hchar hplace in
theorem forall_mem_conditionParts {key : String × Value} (hname : P (.quoted key.1)) :
    ∀ part ∈ conditionParts key, P part := by
  unfold conditionParts
  split
  · exact List.forall_mem_cons.mpr ⟨hname, forall_mem_words hchar (by decide)⟩
  · exact forall_mem_assignmentParts hchar hplace hname

include hchar in
theorem forall_mem_qualifiedParts {schema table : String} (hschema : P (.bare schema))
    (htable : P (.bare table)) : ∀ part ∈ qualifiedParts schema table, P part :=
  List.forall_mem_cons.mpr ⟨hschema, List.forall_mem_cons.mpr
    ⟨hchar '.' (by decide), List.forall_mem_singleton.mpr htable⟩⟩

include hchar hplace in
/-- Of an insert only the names matter. -/
theorem forall_mem_insertParts {schema table : String} {fields : List (String × Value)}
    (hschema : P (.bare schema)) (htable : P (.bare table))
    (hfields : ∀ field ∈ fields, P (.quoted field.1)) :
    ∀ part ∈ insertParts schema table fields, P part := by
  have hcomma : ∀ part ∈ words ", ", P part := forall_mem_words hchar (by decide)
  have hnames : ∀ part ∈ listedParts (fields.map fun field => [.quoted field.1]), P part :=
    forall_mem_intercalate hcomma <| List.forall_mem_map.mpr fun field hfield =>
      List.forall_mem_singleton.mpr (hfields field hfield)
  have hplaces : ∀ part ∈ listedParts (fields.map fun field => [.place field.2]), P part :=
    forall_mem_intercalate hcomma <| List.forall_mem_map.mpr fun field _ =>
      List.forall_mem_singleton.mpr (hplace field.2)
  simp only [insertParts, List.forall_mem_append]
  exact ⟨⟨⟨⟨⟨⟨forall_mem_words hchar (by decide), forall_mem_qualifiedParts hchar hschema htable⟩,
    forall_mem_words hchar (by decide)⟩, hnames⟩, forall_mem_words hchar (by decide)⟩, hplaces⟩,
    forall_mem_words hchar (by decide)⟩

include hchar hplace in
/-- Of an update only the names matter. -/
theorem forall_mem_updateParts {schema table : String} {values keys : List (String × Value)}
    (hschema : P (.bare schema)) (htable : P (.bare table))
    (hvalues : ∀ value ∈ values, P (.quoted value.1)) (hkeys : ∀ key ∈ keys, P (.quoted key.1)) :
    ∀ part ∈ updateParts schema table values keys, P part := by
  have hassignments : ∀ part ∈ listedParts (values.map assignmentParts), P part :=
    forall_mem_intercalate (forall_mem_words hchar (by decide)) <|
      List.forall_mem_map.mpr fun value hvalue =>
        forall_mem_assignmentParts hchar hplace (hvalues value hvalue)
  have hconditions : ∀ part ∈ (words " AND ").intercalate (keys.map conditionParts), P part :=
    forall_mem_intercalate (forall_mem_words hchar (by decide)) <|
      List.forall_mem_map.mpr fun key hkey =>
        forall_mem_conditionParts hchar hplace (hkeys key hkey)
  simp only [updateParts, List.forall_mem_append]
  exact ⟨⟨⟨⟨⟨forall_mem_words hchar (by decide), forall_mem_qualifiedParts hchar hschema htable⟩,
    forall_mem_words hchar (by decide)⟩, hassignments⟩, forall_mem_words hchar (by decide)⟩,
    hconditions⟩

end

end RowContract.Sql
