import Mathlib.Data.List.Induction
import Mathlib.Logic.Function.Basic

/-!
# Tables of immutable files

A table is a directory of files and a catalog row that names the current
metadata file.  Metadata lists snapshots, a snapshot lists data files.  A file
is never written twice: its name is its position among all files ever written.
A rebuild drops the row, removes files, then commits an empty table and appends
parts to it, one snapshot each.  Rebuilds may be cut short anywhere and started
again while readers look up the row, open the metadata and read the data one
file at a time.

Of the catalog and the file format this assumes that names are fresh (they
carry random identifiers), that the row changes in one transaction, and that a
file is complete before anything names it.
-/

namespace TickStream.Library

structure Snapshot where
  id : Nat
  files : List Nat
deriving DecidableEq, Repr

inductive File (ρ : Type) where
  | data (rows : List ρ)
  | metadata (snapshots : List Snapshot)
deriving DecidableEq, Repr

section Reading

variable {ρ : Type} {fileAt larger : Nat → Option (File ρ)}

/-- The rows of the data files of these names, if all are there. -/
def readFiles (fileAt : Nat → Option (File ρ)) :
    List Nat → Option (List ρ)
  | [] => some []
  | name :: rest =>
      match fileAt name with
      | some (.data rows) => (readFiles fileAt rest).map (rows ++ ·)
      | _ => none

theorem readFiles_of_le
    (le : ∀ name file, fileAt name = some file → larger name = some file)
    {names : List Nat} {rows : List ρ}
    (read : readFiles fileAt names = some rows) :
    readFiles larger names = some rows := by
  induction names generalizing rows with
  | nil => exact read
  | cons name rest induction =>
      simp only [readFiles] at read ⊢
      split at read
      · rename_i first found
        obtain ⟨others, tail, same⟩ := Option.map_eq_some_iff.mp read
        rw [le name _ found, induction tail]
        exact congrArg some same
      · cases read

theorem readFiles_concat {names : List Nat} {name : Nat}
    {rows more : List ρ} (read : readFiles fileAt names = some rows)
    (found : fileAt name = some (.data more)) :
    readFiles fileAt (names ++ [name]) = some (rows ++ more) := by
  induction names generalizing rows with
  | nil =>
      cases read
      simp [readFiles, found]
  | cons first rest induction =>
      simp only [readFiles, List.cons_append] at read ⊢
      split at read
      · obtain ⟨others, tail, same⟩ := Option.map_eq_some_iff.mp read
        rw [induction tail, ← same]
        simp
      · cases read

/-- The data files of the current snapshot, or of the one with an id. -/
def chosen (at? : Option Nat) (snapshots : List Snapshot) :
    Option (List Nat) :=
  match at? with
  | none => some ((snapshots.getLast?.map Snapshot.files).getD [])
  | some id =>
      (snapshots.find? (fun snapshot => snapshot.id = id)).map Snapshot.files

/-- The rows of the table with this metadata file. -/
def readTable (fileAt : Nat → Option (File ρ)) (at? : Option Nat)
    (metadata : Nat) : Option (List ρ) :=
  match fileAt metadata with
  | some (.metadata snapshots) =>
      (chosen at? snapshots).bind (readFiles fileAt)
  | _ => none

/-- The snapshots of a metadata file are what appending the parts one by one
gives. -/
structure Holds (fileAt : Nat → Option (File ρ)) (metadata : Nat)
    (snapshots : List Snapshot) (parts : List (List ρ)) : Prop where
  present : fileAt metadata = some (.metadata snapshots)
  length : snapshots.length = parts.length
  reads : ∀ position snapshot, snapshots[position]? = some snapshot →
    readFiles fileAt snapshot.files =
      some (parts.take (position + 1)).flatten

variable {metadata : Nat} {snapshots : List Snapshot} {parts : List (List ρ)}

theorem Holds.of_le (holds : Holds fileAt metadata snapshots parts)
    (le : ∀ name file, fileAt name = some file → larger name = some file) :
    Holds larger metadata snapshots parts where
  present := le _ _ holds.present
  length := holds.length
  reads := fun position snapshot there =>
    readFiles_of_le le (holds.reads position snapshot there)

theorem Holds.empty (present : fileAt metadata = some (.metadata [])) :
    Holds fileAt metadata [] [] where
  present := present
  length := rfl
  reads := by
    intro position snapshot there
    simp at there

/-- The current data files hold all parts. -/
theorem Holds.current (holds : Holds fileAt metadata snapshots parts) :
    readFiles fileAt ((snapshots.getLast?.map Snapshot.files).getD []) =
      some parts.flatten := by
  cases last : snapshots.getLast? with
  | none =>
      have none : parts = [] := by
        rw [List.getLast?_eq_none_iff] at last
        rw [← List.length_eq_zero_iff, ← holds.length, last]
        rfl
      subst none
      rfl
  | some snapshot =>
      rw [List.getLast?_eq_getElem?] at last
      have read := holds.reads _ snapshot last
      have positive : 0 < snapshots.length := by
        by_contra empty
        have none : snapshots = [] := List.length_eq_zero_iff.mp (by omega)
        rw [none] at last
        cases last
      rw [Nat.sub_add_cancel positive, holds.length, List.take_length] at read
      exact read

/-- Appending a part to what a metadata file holds. -/
theorem Holds.concat (holds : Holds fileAt metadata snapshots parts)
    {next data id : Nat} {part : List ρ}
    (stored : fileAt data = some (.data part))
    (written : fileAt next = some (.metadata (snapshots ++
      [⟨id, (snapshots.getLast?.map Snapshot.files).getD [] ++ [data]⟩]))) :
    Holds fileAt next (snapshots ++
      [⟨id, (snapshots.getLast?.map Snapshot.files).getD [] ++ [data]⟩])
      (parts ++ [part]) where
  present := written
  length := by simp [holds.length]
  reads := by
    intro position snapshot there
    by_cases earlier : position < snapshots.length
    · rw [List.getElem?_append_left earlier] at there
      rw [holds.reads position snapshot there, List.take_append_of_le_length]
      have same := holds.length
      omega
    · obtain ⟨inside, last⟩ := List.getElem?_eq_some_iff.mp there
      simp only [List.length_append, List.length_singleton] at inside
      have here : position = snapshots.length := by omega
      subst here
      rw [List.getElem_append_right (by omega)] at last
      simp only [Nat.sub_self, List.getElem_singleton] at last
      rw [← last, readFiles_concat holds.current stored,
        List.take_of_length_le (by simp [holds.length])]
      simp

/-- Whatever snapshot is chosen, its files hold the first parts. -/
theorem Holds.chosen_reads (holds : Holds fileAt metadata snapshots parts)
    {at? : Option Nat} {names : List Nat}
    (choice : chosen at? snapshots = some names) :
    ∃ count, readFiles fileAt names = some (parts.take count).flatten := by
  cases at? with
  | none =>
      cases choice
      exact ⟨parts.length, by rw [List.take_length]; exact holds.current⟩
  | some id =>
      obtain ⟨snapshot, found, rfl⟩ := Option.map_eq_some_iff.mp choice
      obtain ⟨position, inside, same⟩ :=
        List.getElem_of_mem (List.mem_of_find?_eq_some found)
      refine ⟨position + 1, holds.reads position snapshot ?_⟩
      rw [List.getElem?_eq_getElem inside, same]

end Reading

/-- All files ever written, the names of those still on disk, and the metadata
file in the catalog. -/
structure Table (ρ : Type) where
  written : List (File ρ)
  onDisk : List Nat
  current : Option Nat
deriving DecidableEq, Repr

namespace Table

variable {ρ : Type} (table : Table ρ)

def ever (name : Nat) : Option (File ρ) := table.written[name]?

def disk (name : Nat) : Option (File ρ) :=
  if name ∈ table.onDisk then table.written[name]? else none

/-- Write a file under the next name. -/
def write (file : File ρ) : Table ρ :=
  { table with
    written := table.written ++ [file]
    onDisk := table.onDisk ++ [table.written.length] }

def unlink (name : Nat) : Table ρ :=
  { table with onDisk := table.onDisk.filter (fun other => other ≠ name) }

/-- The snapshots of the current metadata. -/
def snapshots : List Snapshot :=
  match table.current.bind table.disk with
  | some (.metadata snapshots) => snapshots
  | _ => []

def read (at? : Option Nat) : Option (List ρ) :=
  table.current.bind (readTable table.disk at?)

/-- Whether the catalog has the table; none where its metadata is not there. -/
def loads : Option Bool :=
  match table.current with
  | none => some false
  | some metadata =>
      match table.disk metadata with
      | some (.metadata _) => some true
      | _ => none

/-- Metadata with one more snapshot, of one more data file. -/
def extended (data : Nat) : List Snapshot :=
  table.snapshots ++
    [⟨table.written.length,
      (table.snapshots.getLast?.map Snapshot.files).getD [] ++ [data]⟩]

theorem disk_le_ever : ∀ name file, table.disk name = some file →
    table.ever name = some file := by
  intro name file found
  simp only [disk] at found
  split_ifs at found
  exact found

theorem ever_le_write (added : File ρ) : ∀ name file,
    table.ever name = some file → (table.write added).ever name = some file := by
  intro name file found
  obtain ⟨inside, _⟩ := List.getElem?_eq_some_iff.mp found
  simp only [ever, write] at found ⊢
  rw [List.getElem?_append_left inside]
  exact found

theorem disk_le_write (added : File ρ) : ∀ name file,
    table.disk name = some file → (table.write added).disk name = some file := by
  intro name file found
  have stored := table.ever_le_write added name file
    (table.disk_le_ever name file found)
  simp only [disk] at found ⊢
  split_ifs at found with there
  have kept : name ∈ (table.write added).onDisk :=
    List.mem_append_left _ there
  rw [if_pos kept]
  exact stored

theorem disk_write (added : File ρ) :
    (table.write added).disk table.written.length = some added := by
  simp [disk, write]

end Table

/-- Where a rebuild stands.  `before` has been appended, `parts` is left. -/
inductive Phase (ρ : Type) where
  | idle
  | drop (parts : List (List ρ))
  | purge (parts : List (List ρ))
  | create (parts : List (List ρ))
  | commit (metadata : Nat) (before parts : List (List ρ))
  | append (before parts : List (List ρ))
  | stored (data : Nat) (before : List (List ρ)) (part : List ρ)
      (parts : List (List ρ))

/-- One step of a rebuild. -/
def Phase.advance {ρ : Type} (table : Table ρ) :
    Phase ρ → Table ρ × Phase ρ
  | .idle => (table, .idle)
  | .drop parts => ({ table with current := none }, .purge parts)
  | .purge parts => (table, .create parts)
  | .create parts =>
      (table.write (.metadata []), .commit table.written.length [] parts)
  | .commit metadata before parts =>
      ({ table with current := some metadata }, .append before parts)
  | .append _ [] => (table, .idle)
  | .append before (part :: parts) =>
      (table.write (.data part), .stored table.written.length before part parts)
  | .stored data before part parts =>
      (table.write (.metadata (table.extended data)),
        .commit table.written.length (before ++ [part]) parts)

/-- The catalog names a part of a rebuild that has been started, or nothing. -/
def Table.Sound {ρ : Type} (started : List (List (List ρ)))
    (table : Table ρ) : Prop :=
  ∀ metadata, table.current = some metadata → ∃ snapshots whole count,
    whole ∈ started ∧
      Holds table.disk metadata snapshots (whole.take count)

/-- The catalog names metadata that holds these parts. -/
def Table.HasParts {ρ : Type} (table : Table ρ) (parts : List (List ρ)) :
    Prop :=
  ∃ metadata snapshots, table.current = some metadata ∧
    Holds table.disk metadata snapshots parts

/-- What a phase knows of the table. -/
def Phase.Ready {ρ : Type} (started : List (List (List ρ)))
    (table : Table ρ) : Phase ρ → Prop
  | .idle => True
  | .drop parts => parts ∈ started
  | .purge parts => parts ∈ started ∧ table.current = none
  | .create parts => parts ∈ started ∧ table.current = none
  | .commit metadata before parts =>
      before ++ parts ∈ started ∧
        ∃ snapshots, Holds table.disk metadata snapshots before
  | .append before parts =>
      before ++ parts ∈ started ∧ table.HasParts before
  | .stored data before part parts =>
      before ++ part :: parts ∈ started ∧ table.HasParts before ∧
        table.disk data = some (.data part)

section Steps

variable {ρ : Type} {started : List (List (List ρ))} {table : Table ρ}

theorem Table.Sound.write (sound : table.Sound started) (added : File ρ) :
    (table.write added).Sound started := by
  intro metadata named
  obtain ⟨snapshots, whole, count, member, holds⟩ := sound metadata named
  exact ⟨snapshots, whole, count, member,
    holds.of_le (table.disk_le_write added)⟩

theorem Table.HasParts.write {parts : List (List ρ)}
    (has : table.HasParts parts) (added : File ρ) :
    (table.write added).HasParts parts := by
  obtain ⟨metadata, snapshots, named, holds⟩ := has
  exact ⟨metadata, snapshots, named, holds.of_le (table.disk_le_write added)⟩

theorem Table.HasParts.snapshots {parts : List (List ρ)}
    (has : table.HasParts parts) :
    ∃ metadata, table.current = some metadata ∧
      Holds table.disk metadata table.snapshots parts := by
  obtain ⟨metadata, snapshots, named, holds⟩ := has
  refine ⟨metadata, named, ?_⟩
  have same : table.snapshots = snapshots := by
    simp [Table.snapshots, named, holds.present]
  rw [same]
  exact holds

/-- A step of a rebuild keeps the catalog sound and leads to the next phase. -/
theorem Phase.advance_ready {phase : Phase ρ} (sound : table.Sound started)
    (ready : phase.Ready started table) :
    (phase.advance table).1.Sound started ∧
      (phase.advance table).2.Ready started (phase.advance table).1 := by
  cases phase with
  | idle => exact ⟨sound, trivial⟩
  | drop parts =>
      refine ⟨?_, ready, rfl⟩
      intro metadata named
      cases named
  | purge parts => exact ⟨sound, ready⟩
  | create parts =>
      refine ⟨sound.write _, ready.1, [], ?_⟩
      exact Holds.empty (table.disk_write _)
  | commit metadata before parts =>
      obtain ⟨member, snapshots, holds⟩ := ready
      refine ⟨?_, member, metadata, snapshots, rfl, holds⟩
      intro named same
      cases same
      refine ⟨snapshots, before ++ parts, before.length, member, ?_⟩
      rw [List.take_left]
      exact holds
  | append before parts =>
      cases parts with
      | nil => exact ⟨sound, trivial⟩
      | cons part rest =>
          exact ⟨sound.write _, ready.1, ready.2.write _,
            table.disk_write _⟩
  | stored data before part parts =>
      obtain ⟨member, has, found⟩ := ready
      obtain ⟨metadata, _, holds⟩ := has.snapshots
      refine ⟨sound.write _, ?_, table.extended data, ?_⟩
      · simpa using member
      · have kept := table.disk_le_write (.metadata (table.extended data))
        exact (holds.of_le kept).concat (kept _ _ found) (table.disk_write _)

end Steps

/-- A read of the table, current or at a snapshot. -/
inductive TableReader (ρ : Type) where
  | idle
  | waiting (at? : Option Nat)
  | located (at? : Option Nat) (metadata : Nat)
  | reading (left : List Nat) (rows : List ρ)
  | finished (rows : List ρ)
  | failed

namespace TableReader

variable {ρ : Type}

def advance (table : Table ρ) : TableReader ρ → TableReader ρ
  | .waiting at? =>
      match table.current with
      | none => .failed
      | some metadata => .located at? metadata
  | .located at? metadata =>
      match table.disk metadata with
      | some (.metadata snapshots) =>
          match chosen at? snapshots with
          | some names => .reading names []
          | none => .failed
      | _ => .failed
  | .reading [] rows => .finished rows
  | .reading (name :: left) rows =>
      match table.disk name with
      | some (.data more) => .reading left (rows ++ more)
      | _ => .failed
  | reader => reader

/-- What a reader will return, if it does, whatever happens to the table. -/
def Promised (started : List (List (List ρ))) (table : Table ρ) :
    TableReader ρ → Prop
  | .located _ metadata => ∃ snapshots whole count, whole ∈ started ∧
      Holds table.ever metadata snapshots (whole.take count)
  | .reading left rows => ∃ whole count tail, whole ∈ started ∧
      readFiles table.ever left = some tail ∧
        rows ++ tail = (whole.take count).flatten
  | .finished rows => ∃ whole count, whole ∈ started ∧
      rows = (whole.take count).flatten
  | _ => True

variable {started : List (List (List ρ))} {table : Table ρ}
  {reader : TableReader ρ}

/-- A promise outlives changes of the table. -/
theorem Promised.of_le {larger : List (List (List ρ))} {next : Table ρ}
    (promised : reader.Promised started table)
    (subset : ∀ whole ∈ started, whole ∈ larger)
    (le : ∀ name file, table.ever name = some file →
      next.ever name = some file) :
    reader.Promised larger next := by
  cases reader with
  | idle => trivial
  | waiting at? => trivial
  | failed => trivial
  | located at? metadata =>
      obtain ⟨snapshots, whole, count, member, holds⟩ := promised
      exact ⟨snapshots, whole, count, subset whole member, holds.of_le le⟩
  | reading left rows =>
      obtain ⟨whole, count, tail, member, read, same⟩ := promised
      exact ⟨whole, count, tail, subset whole member,
        readFiles_of_le le read, same⟩
  | finished rows =>
      obtain ⟨whole, count, member, same⟩ := promised
      exact ⟨whole, count, subset whole member, same⟩

/-- A reader that goes on keeps its promise. -/
theorem Promised.advance (promised : reader.Promised started table)
    (sound : table.Sound started) :
    (reader.advance table).Promised started table := by
  cases reader with
  | idle => exact promised
  | failed => exact promised
  | finished rows => exact promised
  | waiting at? =>
      simp only [TableReader.advance]
      cases named : table.current with
      | none => trivial
      | some metadata =>
          obtain ⟨snapshots, whole, count, member, holds⟩ :=
            sound metadata named
          exact ⟨snapshots, whole, count, member,
            holds.of_le table.disk_le_ever⟩
  | located at? metadata =>
      obtain ⟨snapshots, whole, count, member, holds⟩ := promised
      simp only [TableReader.advance]
      split
      · rename_i found present
        have same := table.disk_le_ever _ _ present
        rw [holds.present, Option.some.injEq, File.metadata.injEq] at same
        subst same
        split
        · rename_i names choice
          obtain ⟨fewer, read⟩ := holds.chosen_reads choice
          refine ⟨whole, min fewer count, _, member, read, ?_⟩
          rw [List.nil_append, List.take_take]
        · trivial
      · trivial
  | reading left rows =>
      obtain ⟨whole, count, tail, member, read, same⟩ := promised
      cases left with
      | nil =>
          cases read
          exact ⟨whole, count, member, by simpa using same⟩
      | cons name rest =>
          simp only [TableReader.advance]
          split
          · rename_i more present
            simp only [readFiles, table.disk_le_ever _ _ present] at read
            obtain ⟨others, tailRead, rfl⟩ := Option.map_eq_some_iff.mp read
            exact ⟨whole, count, others, member, tailRead, by simpa using same⟩
          · trivial

end TableReader

/-- A rebuild starts, whatever the last one was doing; it takes a step; a file
is removed; a reader starts or takes a step. -/
inductive TableEvent (ρ γ : Type) where
  | start (parts : List (List ρ))
  | proceed
  | unlink (name : Nat)
  | look (reader : γ) (at? : Option Nat)
  | fetch (reader : γ)

structure TableState (ρ γ : Type) where
  table : Table ρ
  phase : Phase ρ
  readers : γ → TableReader ρ

namespace TableState

variable {ρ γ : Type} [DecidableEq γ]

def initial : TableState ρ γ := ⟨⟨[], [], none⟩, .idle, fun _ => .idle⟩

/-- Files are removed only while a rebuild purges the directory. -/
def step (state : TableState ρ γ) : TableEvent ρ γ → TableState ρ γ
  | .start parts => { state with phase := .drop parts }
  | .proceed =>
      let next := state.phase.advance state.table
      { state with table := next.1, phase := next.2 }
  | .unlink name =>
      match state.phase with
      | .purge _ => { state with table := state.table.unlink name }
      | _ => state
  | .look reader at? =>
      { state with
        readers := Function.update state.readers reader (.waiting at?) }
  | .fetch reader =>
      { state with
        readers := Function.update state.readers reader
          ((state.readers reader).advance state.table) }

def run (history : List (TableEvent ρ γ)) : TableState ρ γ :=
  history.foldl step initial

/-- The parts of every rebuild started in a history. -/
def starts (history : List (TableEvent ρ γ)) : List (List (List ρ)) :=
  history.filterMap (fun event =>
    match event with
    | .start parts => some parts
    | _ => none)

/-- What holds after every history. -/
structure Safe (started : List (List (List ρ))) (state : TableState ρ γ) :
    Prop where
  sound : state.table.Sound started
  ready : state.phase.Ready started state.table
  promised : ∀ reader,
    (state.readers reader).Promised started state.table

theorem advance_ever (phase : Phase ρ) (table : Table ρ) :
    ∀ name file, table.ever name = some file →
      (phase.advance table).1.ever name = some file := by
  intro name file found
  cases phase with
  | append before parts =>
      cases parts with
      | nil => exact found
      | cons part rest => exact table.ever_le_write _ name file found
  | create parts => exact table.ever_le_write _ name file found
  | stored data before part parts =>
      exact table.ever_le_write _ name file found
  | _ => exact found

theorem Safe.step {started : List (List (List ρ))} {state : TableState ρ γ}
    (safe : state.Safe started) (event : TableEvent ρ γ) :
    (state.step event).Safe (started ++ starts [event]) := by
  cases event with
  | start parts =>
      have more : ∀ whole ∈ started,
          whole ∈ started ++ starts [TableEvent.start (γ := γ) parts] :=
        fun whole member => List.mem_append_left _ member
      refine ⟨?_, ?_, ?_⟩
      · intro metadata named
        obtain ⟨snapshots, whole, count, member, holds⟩ :=
          safe.sound metadata named
        exact ⟨snapshots, whole, count, more whole member, holds⟩
      · exact List.mem_append_right _ (by simp [starts])
      · intro reader
        exact (safe.promised reader).of_le more (fun _ _ found => found)
  | proceed =>
      simp only [starts, List.filterMap_cons, List.filterMap_nil,
        List.append_nil]
      obtain ⟨sound, ready⟩ := Phase.advance_ready safe.sound safe.ready
      refine ⟨sound, ready, ?_⟩
      intro reader
      exact (safe.promised reader).of_le (fun _ member => member)
        (advance_ever state.phase state.table)
  | unlink name =>
      simp only [starts, List.filterMap_cons, List.filterMap_nil,
        List.append_nil, TableState.step]
      have ready := safe.ready
      cases phase : state.phase with
      | purge parts =>
          rw [phase] at ready
          refine ⟨?_, ?_, safe.promised⟩
          · intro metadata named
            rw [Table.unlink, ready.2] at named
            cases named
          · exact ready
      | _ => exact safe
  | look reader at? =>
      simp only [starts, List.filterMap_cons, List.filterMap_nil,
        List.append_nil]
      refine ⟨safe.sound, safe.ready, ?_⟩
      intro other
      by_cases same : other = reader
      · subst same
        simp [TableState.step, TableReader.Promised]
      · simp only [TableState.step, Function.update_of_ne same]
        exact safe.promised other
  | fetch reader =>
      simp only [starts, List.filterMap_cons, List.filterMap_nil,
        List.append_nil]
      refine ⟨safe.sound, safe.ready, ?_⟩
      intro other
      by_cases same : other = reader
      · subst same
        simp only [TableState.step, Function.update_self]
        exact (safe.promised other).advance safe.sound
      · simp only [TableState.step, Function.update_of_ne same]
        exact safe.promised other

theorem run_safe (history : List (TableEvent ρ γ)) :
    (run history).Safe (starts history) := by
  induction history using List.reverseRecOn with
  | nil =>
      refine ⟨?_, trivial, fun _ => trivial⟩
      intro metadata named
      cases named
  | append_singleton history event induction =>
      have next := induction.step event
      simp only [run, List.foldl_append, List.foldl_cons, List.foldl_nil,
        starts, List.filterMap_append] at next ⊢
      exact next

/-- A reader that finishes has the first parts of one rebuild, never rows of
two, however rebuilds are cut short and files disappear under it. -/
theorem finished_of_run {history : List (TableEvent ρ γ)} {reader : γ}
    {rows : List ρ} (done : (run history).readers reader = .finished rows) :
    ∃ whole count, whole ∈ starts history ∧
      rows = (whole.take count).flatten := by
  have promised := (run_safe history).promised reader
  rw [done] at promised
  exact promised

end TableState

namespace Table

variable {ρ : Type}

def drop (table : Table ρ) : Table ρ := { table with current := none }

/-- Remove the directory, except for the files that stay. -/
def purge (stays : Nat → Bool) (table : Table ρ) : Table ρ :=
  { table with onDisk := table.onDisk.filter stays }

def create (table : Table ρ) : Table ρ :=
  { table.write (.metadata []) with current := some table.written.length }

/-- Append rows as one snapshot. -/
def append (table : Table ρ) (part : List ρ) : Table ρ :=
  let stored := table.write (.data part)
  { stored.write (.metadata (stored.extended table.written.length)) with
    current := some stored.written.length }

def rebuild (stays : Nat → Bool) (parts : List (List ρ)) (table : Table ρ) :
    Table ρ :=
  parts.foldl append (table.drop.purge stays).create

/-- The snapshot ids increase and have all been used. -/
structure Numbered (table : Table ρ) : Prop where
  increasing : (table.snapshots.map Snapshot.id).Pairwise (· < ·)
  used : ∀ snapshot ∈ table.snapshots, snapshot.id < table.written.length

variable {table : Table ρ} {parts : List (List ρ)}

theorem create_hasParts (table : Table ρ) : table.create.HasParts [] :=
  ⟨table.written.length, [], rfl, Holds.empty (table.disk_write _)⟩

theorem create_snapshots (table : Table ρ) : table.create.snapshots = [] := by
  have written : table.create.disk table.written.length =
      some (.metadata []) := table.disk_write _
  have named : table.create.current = some table.written.length := rfl
  simp only [snapshots, named, Option.bind_some, written]

theorem create_numbered (table : Table ρ) : table.create.Numbered := by
  have none := table.create_snapshots
  exact ⟨by simp [none], by simp [none]⟩

theorem HasParts.write_snapshots (has : table.HasParts parts)
    (added : File ρ) : (table.write added).snapshots = table.snapshots := by
  obtain ⟨metadata, found, named, holds⟩ := has
  have kept := table.disk_le_write added _ _ holds.present
  have still : (table.write added).current = some metadata := named
  simp only [Table.snapshots, still, Option.bind_some, kept, named,
    holds.present]

/-- An append adds one snapshot, with a new id. -/
theorem HasParts.append_snapshots (has : table.HasParts parts)
    (part : List ρ) : ∃ files, (table.append part).snapshots =
      table.snapshots ++ [⟨table.written.length + 1, files⟩] := by
  have written : (table.append part).disk
      (table.write (.data part)).written.length = some (.metadata
        ((table.write (.data part)).extended table.written.length)) :=
    (table.write (.data part)).disk_write _
  have named : (table.append part).current =
      some (table.write (.data part)).written.length := rfl
  have count : (table.write (.data part)).written.length =
      table.written.length + 1 := by
    simp [Table.write]
  refine ⟨(table.snapshots.getLast?.map Snapshot.files).getD [] ++
    [table.written.length], ?_⟩
  rw [Table.snapshots, named, Option.bind_some, written]
  simp only [extended, has.write_snapshots, count]

theorem HasParts.append (has : table.HasParts parts) (part : List ρ) :
    (table.append part).HasParts (parts ++ [part]) := by
  obtain ⟨metadata, _, holds⟩ := (has.write (.data part)).snapshots
  have kept := (table.write (.data part)).disk_le_write
    (.metadata ((table.write (.data part)).extended table.written.length))
  have stored := table.disk_write (.data part)
  exact ⟨_, _, rfl, (holds.of_le kept).concat (kept _ _ stored)
    ((table.write (.data part)).disk_write _)⟩

theorem Numbered.append (numbered : table.Numbered)
    (has : table.HasParts parts) (part : List ρ) :
    (table.append part).Numbered := by
  obtain ⟨files, added⟩ := has.append_snapshots part
  have longer : (table.append part).written.length =
      table.written.length + 2 := by
    simp [Table.append, Table.write]
  constructor
  · rw [added, List.map_append, List.pairwise_append]
    refine ⟨numbered.increasing, by simp, ?_⟩
    intro id member other last
    obtain ⟨snapshot, there, rfl⟩ := List.mem_map.mp member
    simp only [List.map_cons, List.map_nil, List.mem_singleton] at last
    have used := numbered.used snapshot there
    omega
  · intro snapshot member
    rw [added] at member
    rw [longer]
    rcases List.mem_append.mp member with old | new
    · have used := numbered.used snapshot old
      omega
    · rw [List.mem_singleton] at new
      rw [new]
      exact Nat.lt_succ_self _

theorem foldl_append_hasParts {before : List (List ρ)}
    (has : table.HasParts before) (numbered : table.Numbered) :
    (parts.foldl Table.append table).HasParts (before ++ parts) ∧
      (parts.foldl Table.append table).Numbered := by
  induction parts generalizing table before with
  | nil => exact ⟨by simpa using has, numbered⟩
  | cons part rest induction =>
      have next := induction (has.append part) (numbered.append has part)
      simpa using next

theorem rebuild_hasParts (stays : Nat → Bool) (parts : List (List ρ))
    (table : Table ρ) :
    (table.rebuild stays parts).HasParts parts ∧
      (table.rebuild stays parts).Numbered := by
  rw [← List.nil_append parts, rebuild]
  exact foldl_append_hasParts (create_hasParts _) (create_numbered _)

/-- Reading back a table: all of it, and every snapshot of it. -/
theorem HasParts.read (has : table.HasParts parts)
    (numbered : table.Numbered) :
    table.read none = some parts.flatten ∧
      table.snapshots.length = parts.length ∧
      ∀ position snapshot, table.snapshots[position]? = some snapshot →
        table.read (some snapshot.id) =
          some (parts.take (position + 1)).flatten := by
  obtain ⟨metadata, named, holds⟩ := has.snapshots
  have reads : ∀ at?, table.read at? =
      (chosen at? table.snapshots).bind (readFiles table.disk) := by
    intro at?
    simp only [Table.read, named, Option.bind_some, readTable, holds.present]
  refine ⟨?_, holds.length, ?_⟩
  · rw [reads]
    exact holds.current
  · intro position snapshot there
    have distinct : table.snapshots.find?
        (fun other => other.id = snapshot.id) = some snapshot := by
      have pairs := List.pairwise_map.mp numbered.increasing
      obtain ⟨inside, same⟩ := List.getElem?_eq_some_iff.mp there
      rw [List.find?_eq_some_iff_getElem]
      refine ⟨by simp, position, inside, same, ?_⟩
      intro earlier before
      have lower := List.pairwise_iff_getElem.mp pairs earlier position
        (by omega) inside before
      rw [same] at lower
      simp only [Bool.not_eq_true', decide_eq_false_iff_not]
      omega
    rw [reads]
    simp only [chosen, distinct, Option.map_some, Option.bind_some]
    exact holds.reads position snapshot there

theorem foldl_append_onDisk (parts : List (List ρ)) (table : Table ρ) :
    (parts.foldl Table.append table).onDisk =
      table.onDisk ++ List.range' table.written.length (2 * parts.length) ∧
    (parts.foldl Table.append table).written.length =
      table.written.length + 2 * parts.length := by
  induction parts generalizing table with
  | nil => simp
  | cons part rest induction =>
      obtain ⟨names, count⟩ := induction (table.append part)
      have longer : (table.append part).written.length =
          table.written.length + 2 := by
        simp [Table.append, Table.write]
      have added : (table.append part).onDisk = table.onDisk ++
          [table.written.length, table.written.length + 1] := by
        simp [Table.append, Table.write]
      rw [List.foldl_cons, names, count, longer, added, List.length_cons]
      refine ⟨?_, by omega⟩
      rw [Nat.mul_add, Nat.mul_one, Nat.add_comm (2 * rest.length) 2,
        Nat.add_comm 2, List.range'_succ]
      simp [List.range'_succ]

/-- The directory has the files that stayed and those of the rebuild. -/
theorem rebuild_onDisk (stays : Nat → Bool) (parts : List (List ρ))
    (table : Table ρ) :
    (table.rebuild stays parts).onDisk = table.onDisk.filter stays ++
      List.range' table.written.length (2 * parts.length + 1) := by
  have built := (foldl_append_onDisk parts (table.drop.purge stays).create).1
  have first : (table.drop.purge stays).create.onDisk =
      table.onDisk.filter stays ++ [table.written.length] := rfl
  have count : (table.drop.purge stays).create.written.length =
      table.written.length + 1 := by
    simp [create, purge, drop, write]
  rw [rebuild, built, first, count, List.range'_succ, List.append_assoc]
  rfl

end Table

namespace TableState

variable {ρ γ : Type} [DecidableEq γ]

theorem foldl_unlink (names : List Nat) {state : TableState ρ γ}
    {parts : List (List ρ)} (purging : state.phase = .purge parts) :
    (names.map .unlink).foldl step state =
      { state with
        table :=
          { state.table with
            onDisk := state.table.onDisk.filter
              (fun name => name ∉ names) } } := by
  induction names generalizing state with
  | nil =>
      have all : state.table.onDisk.filter (fun name => name ∉ []) =
          state.table.onDisk := by
        simp only [List.filter_eq_self]
        simp
      rw [all]
      rfl
  | cons name rest induction =>
      have one : state.step (.unlink name) =
          { state with table := state.table.unlink name } := by
        simp only [step, purging]
      rw [List.map_cons, List.foldl_cons, one,
        induction (by simpa using purging)]
      simp only [Table.unlink, List.filter_filter, List.mem_cons, not_or]
      congr 2
      apply List.filter_congr
      intro other _
      by_cases same : other = name
      · simp [same]
      · simp [same]

theorem foldl_proceed (parts : List (List ρ)) {before : List (List ρ)}
    {state : TableState ρ γ} (appending : state.phase = .append before parts) :
    (List.replicate (3 * parts.length + 1) .proceed).foldl step state =
      { state with
        table := parts.foldl Table.append state.table, phase := .idle } := by
  induction parts generalizing before state with
  | nil => simp [step, appending, Phase.advance]
  | cons part rest induction =>
      have three : 3 * (part :: rest).length + 1 =
          3 * rest.length + 1 + 1 + 1 + 1 := by
        rw [List.length_cons]
        omega
      rw [three, List.replicate_succ, List.replicate_succ,
        List.replicate_succ, List.foldl_cons, List.foldl_cons,
        List.foldl_cons]
      have appended : ((state.step .proceed).step .proceed).step .proceed =
          { state with
            table := state.table.append part
            phase := .append (before ++ [part]) rest } := by
        simp only [step, appending, Phase.advance, Table.append]
      rw [appended, induction rfl]
      rfl

/-- An uninterrupted rebuild is one history of the steps. -/
theorem exists_rebuild (stays : Nat → Bool) (parts : List (List ρ))
    (state : TableState ρ γ) :
    ∃ history : List (TableEvent ρ γ), history.foldl step state =
      { state with
        table := state.table.rebuild stays parts, phase := .idle } := by
  refine ⟨[.start parts, .proceed] ++
    (state.table.onDisk.filter (fun name => !stays name)).map .unlink ++
    [.proceed, .proceed, .proceed] ++
    List.replicate (3 * parts.length + 1) .proceed, ?_⟩
  have dropped : [.start parts, .proceed].foldl step state =
      { state with
        table := { state.table with current := none }
        phase := .purge parts } := rfl
  rw [List.foldl_append, List.foldl_append, List.foldl_append, dropped,
    foldl_unlink _ rfl]
  have left : state.table.onDisk.filter (fun name => name ∉
      state.table.onDisk.filter (fun name => !stays name)) =
        state.table.onDisk.filter stays := by
    apply List.filter_congr
    intro name member
    simp [member]
  simp only [left]
  rw [foldl_proceed parts rfl]
  rfl

/-- The table a history leaves can be loaded. -/
theorem loads_of_run (history : List (TableEvent ρ γ)) :
    ∃ there, (run history).table.loads = some there := by
  rw [Table.loads]
  cases named : (run history).table.current with
  | none => exact ⟨false, rfl⟩
  | some metadata =>
      obtain ⟨snapshots, _, _, _, holds⟩ :=
        (run_safe history).sound metadata named
      refine ⟨true, ?_⟩
      simp only [holds.present]

end TableState

end TickStream.Library
