import DeclIndex.Proofs.Labels
import DeclIndex.Table

/-!
# The tables of some records

Each file that has records has one table, and the tables stand in the order of their files. Read
from the first table to the last, their records are all records sorted by file, where those of one
file keep their order (`Table.flatMap_entries_ofRecords`). So no record is lost, and none stands
twice.

It does not matter that the records of each file are picked out of all records. The tables may as
well be filled record by record, where a file that was not met before starts a new table at the end,
and be put in order afterwards (`Table.ofRecords_eq_gather`).
-/

namespace DeclIndex.Table

/-- The tables with one more record, in the table of its file or in a new one at the end. -/
def add : List Table → Record → List Table
  | [], record => [⟨record.file, [record]⟩]
  | table :: tables, record =>
    if table.file = record.file then ⟨table.file, table.records ++ [record]⟩ :: tables
    else table :: add tables record

/-- The tables that some records fill, one after the other. -/
def gather (records : List Record) : List Table :=
  records.foldl add []

/-- The table of a file. -/
def ofFile (records : List Record) (file : String) : Table :=
  ⟨file, records.filter fun record => record.file == file⟩

/-- The files of some records, in the order in which they are met. -/
def filesMet (records : List Record) : List String :=
  (records.map (·.file)).eraseDups

/-- The records of a table, as records of the file that it is about. -/
def entries (table : Table) : List Record :=
  table.records.map fun record => { record with file := table.file }

/-- Records sorted by file. -/
def sorted (records : List Record) : List Record :=
  records.mergeSort fun record other => decide (record.file ≤ other.file)

variable {records : List Record} {record : Record} {table : Table} {tables : List Table}
  {met : List String} {file : String}

/-! ## Filling tables record by record -/

theorem add_of_eq (isFile : table.file = record.file) :
    add (table :: tables) record = ⟨table.file, table.records ++ [record]⟩ :: tables :=
  if_pos isFile

theorem add_of_ne (otherFile : table.file ≠ record.file) :
    add (table :: tables) record = table :: add tables record :=
  if_neg otherFile

theorem ofFile_concat_of_eq (isFile : record.file = file) (records : List Record) :
    ofFile (records ++ [record]) file = ⟨file, (ofFile records file).records ++ [record]⟩ := by
  rw [ofFile, List.filter_append, List.filter_cons_of_pos (by simpa using isFile)]
  rfl

theorem ofFile_concat_of_ne (otherFile : record.file ≠ file) (records : List Record) :
    ofFile (records ++ [record]) file = ofFile records file := by
  rw [ofFile, List.filter_append, List.filter_cons_of_neg (by simpa using otherFile),
    List.filter_nil, List.append_nil]
  rfl

theorem map_ofFile_concat (isNew : record.file ∉ met) (records : List Record) :
    met.map (ofFile (records ++ [record])) = met.map (ofFile records) := by
  apply List.map_congr_left
  intro file isMet
  apply ofFile_concat_of_ne
  rintro rfl
  exact isNew isMet

theorem add_of_mem (distinct : met.Nodup) (isMet : record.file ∈ met) :
    add (met.map (ofFile records)) record = met.map (ofFile (records ++ [record])) := by
  induction met with
  | nil => cases isMet
  | cons file met inductionHypothesis =>
      rw [List.nodup_cons] at distinct
      rw [List.map_cons, List.map_cons]
      by_cases isFile : record.file = file
      · rw [add_of_eq isFile.symm, map_ofFile_concat (isFile ▸ distinct.1),
          ofFile_concat_of_eq isFile]
        rfl
      · have isMetLater : record.file ∈ met := List.mem_of_ne_of_mem isFile isMet
        rw [add_of_ne (Ne.symm isFile), inductionHypothesis distinct.2 isMetLater,
          ofFile_concat_of_ne isFile]

theorem add_of_notMem (isNew : record.file ∉ met) :
    add (met.map (ofFile records)) record =
      met.map (ofFile records) ++ [⟨record.file, [record]⟩] := by
  induction met with
  | nil => rfl
  | cons file met inductionHypothesis =>
      rw [List.mem_cons, not_or] at isNew
      rw [List.map_cons, add_of_ne (Ne.symm isNew.1), inductionHypothesis isNew.2]
      rfl

theorem mem_filesMet_iff : file ∈ filesMet records ↔ ∃ record ∈ records, record.file = file := by
  rw [filesMet, List.mem_eraseDups, List.mem_map]

theorem nodup_filesMet (records : List Record) : (filesMet records).Nodup :=
  Sequence.nodup_eraseDups _

theorem filesMet_concat_of_mem (isMet : record.file ∈ filesMet records) :
    filesMet (records ++ [record]) = filesMet records := by
  rw [filesMet, List.map_append]
  exact Sequence.eraseDups_concat_of_mem (List.mem_eraseDups.mp isMet)

theorem filesMet_concat_of_notMem (isNew : record.file ∉ filesMet records) :
    filesMet (records ++ [record]) = filesMet records ++ [record.file] := by
  rw [filesMet, List.map_append]
  exact Sequence.eraseDups_concat_of_notMem fun isMet => isNew (List.mem_eraseDups.mpr isMet)

/-- The tables that were filled so far are those of the files met so far. -/
theorem add_filesMet (records : List Record) (record : Record) :
    add ((filesMet records).map (ofFile records)) record =
      (filesMet (records ++ [record])).map (ofFile (records ++ [record])) := by
  by_cases isMet : record.file ∈ filesMet records
  · rw [add_of_mem (nodup_filesMet records) isMet, filesMet_concat_of_mem isMet]
  · have noRecord : (ofFile records record.file).records = [] := by
      apply List.filter_eq_nil_iff.mpr
      intro other isOther isFile
      exact isMet (mem_filesMet_iff.mpr ⟨other, isOther, beq_iff_eq.mp isFile⟩)
    rw [add_of_notMem isMet, filesMet_concat_of_notMem isMet, List.map_append,
      map_ofFile_concat isMet, List.map_singleton, ofFile_concat_of_eq rfl, noRecord]
    rfl

theorem foldl_add (done records : List Record) :
    records.foldl add ((filesMet done).map (ofFile done)) =
      (filesMet (done ++ records)).map (ofFile (done ++ records)) := by
  -- The induction is on the records to come; those that are done tell which tables there are.
  induction records generalizing done with
  | nil => rw [List.append_nil, List.foldl_nil]
  | cons record records inductionHypothesis =>
      rw [List.foldl_cons, add_filesMet, inductionHypothesis, List.append_assoc]
      rfl

theorem gather_eq (records : List Record) :
    gather records = (filesMet records).map (ofFile records) :=
  foldl_add [] records

theorem ofRecords_eq_gather (records : List Record) :
    ofRecords records =
      (gather records).mergeSort fun table other => decide (table.file ≤ other.file) := by
  rw [gather_eq]
  exact List.map_mergeSort fun _ _ _ _ => rfl

/-! ## The order of the rows -/

theorem map_file_ofRecords (records : List Record) :
    (ofRecords records).map (·.file) = files records := by
  rw [ofRecords, List.map_map]
  exact List.map_id _

theorem pairwise_files (records : List Record) : (files records).Pairwise (· < ·) := by
  apply Sequence.pairwise_lt_of_nodup (Sequence.ordered_mergeSort id _)
  exact (List.mergeSort_perm _ _).nodup_iff.mpr (nodup_filesMet records)

theorem mem_files_iff : file ∈ files records ↔ ∃ record ∈ records, record.file = file := by
  rw [files, List.mem_mergeSort]
  exact mem_filesMet_iff

theorem entries_ofFile (records : List Record) (file : String) :
    (ofFile records file).entries = records.filter fun record => record.file == file := by
  have sameRecord : ∀ record ∈ (ofFile records file).records,
      { record with file := (ofFile records file).file } = record := by
    intro record isRecord
    cases Sequence.label_of_mem_filter isRecord
    rfl
  rw [entries, List.map_congr_left sameRecord, List.map_id']
  rfl

theorem flatMap_entries_ofRecords (records : List Record) :
    (ofRecords records).flatMap entries = sorted records := by
  have covers : ∀ record ∈ records, record.file ∈ files records := by
    intro record isRecord
    exact mem_files_iff.mpr ⟨record, isRecord, rfl⟩
  have areEntries : (ofRecords records).flatMap entries =
      (files records).flatMap fun file => records.filter fun record => record.file == file := by
    rw [ofRecords, List.flatMap_map]
    exact List.flatMap_congr fun file _ => entries_ofFile records file
  rw [areEntries, Sequence.flatMap_filter_eq_mergeSort (pairwise_files records) covers, sorted]

end DeclIndex.Table
