import Datacrate.Ingest.Rows
import Datacrate.Lib.Fallible
import Datacrate.Query.Amount
import Datacrate.Query.AmountRange

namespace Datacrate.Query

open Datacrate.Ingest (CsvFile StringRecord PipelineIoError parseId ArrowLibrary textBytes maxOffset)
open Aggregate (Calls)

/-- Why orders are not read. -/
inductive OrdersError where
  | io (source : PipelineIoError)
  | amount (failure : AmountFailure)
  | invalidTimestamp (row : Nat) (value : String)
  | buildBatch (source : String)

section Reading

variable {ε T : Type}

/-- The records in turn, from the row index of the first. -/
def readRecords (io : PipelineIoError → ε) (parse : Nat → StringRecord → Except ε T) :
    Nat → List (Except String StringRecord) → Except ε (List T)
  | _, [] => .ok []
  | row, record :: records => do
    let record ← record.mapError fun source => io (.readRecord source)
    let first ← parse row record
    let others ← readRecords io parse (row + 1) records
    return first :: others

/-- Every record of a headered file, parsed with its row index. -/
def readCsvRows (io : PipelineIoError → ε) (parse : Nat → StringRecord → Except ε T) (file : CsvFile) :
    Except ε (List T) :=
  match file.opened with
  | .error source => .error (io (.openInput file.path source))
  | .ok records => readRecords io parse 0 records

end Reading

structure OrderRow where
  id : Int
  amount : Int
  placedAt : Int
  note : Option String
  deriving DecidableEq, Repr

/-- Microseconds since the epoch. The calendar is that of the library, which
reads a text as a point of time or not. -/
def parseTimestamp (chrono : String → Option Int) (row : Nat) (value : String) : Except OrdersError Int :=
  match chrono value with
  | some micros => .ok micros
  | none => .error (.invalidTimestamp row value)

def parseOrderRow (chrono : String → Option Int) (row : Nat) (record : StringRecord) : Except OrdersError OrderRow := do
  let id ← (parseId row record).mapError .io
  let amount ← (parseAmount row (record[1]?.getD "")).mapError .amount
  let placedAt ← parseTimestamp chrono row (record[2]?.getD "")
  let note := match record[3]?.getD "" with
    | "" => none
    | note => some note
  return { id, amount, placedAt, note }

/-- The columns of the orders, one place a row. -/
structure OrdersBatch where
  ids : List (Option Int)
  amounts : Decimal128Array
  placedAts : List (Option Int)
  notes : List (Option String)
  deriving DecidableEq, Repr

/-- Columns that a batch of orders may have: of one length, of the types of
its schema, and with nulls only among the notes. -/
structure OrdersBatch.Assembled (batch : OrdersBatch) : Prop where
  length : batch.amounts.cells.length = batch.ids.length ∧ batch.placedAts.length = batch.ids.length ∧
    batch.notes.length = batch.ids.length
  decimal : batch.amounts.precision = 10 ∧ batch.amounts.scale = 2
  nulls : none ∉ batch.ids ∧ none ∉ batch.amounts.cells ∧ none ∉ batch.placedAts

instance (batch : OrdersBatch) : Decidable batch.Assembled :=
  decidable_of_iff (_ ∧ _ ∧ _) ⟨fun ⟨length, decimal, nulls⟩ => ⟨length, decimal, nulls⟩,
    fun ⟨length, decimal, nulls⟩ => ⟨length, decimal, nulls⟩⟩

/-- What the orders take from Arrow: decimal arrays and their declaration, and
the checked constructor of a batch. An array of values has the precision and
scale of the type until others are declared, which are accepted if a decimal of
128 bits has so many digits and the scale is none of more. -/
structure OrdersLibrary where
  arrow : ArrowLibrary
  fromIterValues : List Int → Decimal128Array
  withPrecisionAndScale : Decimal128Array → Nat → Nat → Except String Decimal128Array
  tryNew : List (Option Int) → Decimal128Array → List (Option Int) → List (Option String) → Except String OrdersBatch
  values : ∀ values, (fromIterValues values).cells = values.map some
  declares : ∀ array precision scale, 0 < precision → precision ≤ 38 → scale ≤ precision →
    withPrecisionAndScale array precision scale = .ok { array with precision, scale }
  builds : ∀ batch : OrdersBatch, batch.Assembled →
    tryNew batch.ids batch.amounts batch.placedAts batch.notes = .ok batch

/-- Arrow as it documents itself. -/
def OrdersLibrary.documented : OrdersLibrary where
  arrow := .documented
  fromIterValues values := ⟨values.map some, 38, 10⟩
  withPrecisionAndScale array precision scale :=
    if 0 < precision ∧ precision ≤ 38 ∧ scale ≤ precision then .ok { array with precision, scale }
    else .error "invalid precision or scale"
  tryNew ids amounts placedAts notes :=
    if OrdersBatch.Assembled ⟨ids, amounts, placedAts, notes⟩ then .ok ⟨ids, amounts, placedAts, notes⟩
    else .error "invalid columns"
  values _ := rfl
  declares _ _ _ positive within scale := if_pos ⟨positive, within, scale⟩
  builds _ assembled := if_pos assembled

/-- No outcome is a panic: the notes are more than a string array holds. -/
def rowsToOrdersBatch (library : OrdersLibrary) (rows : List OrderRow) : Option (Except OrdersError OrdersBatch) :=
  let ids := rows.map fun row => some row.id
  match library.withPrecisionAndScale (library.fromIterValues (rows.map (·.amount))) 10 2 with
  | .error source => some (.error (.buildBatch source))
  | .ok amounts => do
    let placedAts := rows.map fun row => some row.placedAt
    let notes ← library.arrow.stringArray (rows.map (·.note))
    return (library.tryNew ids amounts placedAts notes).mapError .buildBatch

def fixtureToOrdersBatch (library : OrdersLibrary) (chrono : String → Option Int) (file : CsvFile) :
    Option (Except OrdersError OrdersBatch) :=
  match readCsvRows .io (parseOrderRow chrono) file with
  | .ok rows => rowsToOrdersBatch library rows
  | .error source => some (.error source)

/-- The columns that some rows have. -/
def ordersBatch (rows : List OrderRow) : OrdersBatch where
  ids := rows.map fun row => some row.id
  amounts := ⟨rows.map fun row => some row.amount, 10, 2⟩
  placedAts := rows.map fun row => some row.placedAt
  notes := rows.map (·.note)

theorem ordersBatch_assembled (rows : List OrderRow) : (ordersBatch rows).Assembled where
  length := by simp [ordersBatch]
  decimal := ⟨rfl, rfl⟩
  nulls := by simp [ordersBatch]

/-- Rows make their batch just where their notes fit the offsets. -/
theorem rowsToOrdersBatch_eq (library : OrdersLibrary) (rows : List OrderRow) : rowsToOrdersBatch library rows =
    if textBytes (rows.map (·.note)) ≤ maxOffset then some (.ok (ordersBatch rows)) else none := by
  have declared : library.withPrecisionAndScale (library.fromIterValues (rows.map (·.amount))) 10 2 =
      .ok (ordersBatch rows).amounts := by
    rw [library.declares _ 10 2 (by omega) (by omega) (by omega), library.values]
    simp [ordersBatch]
  have built := library.builds (ordersBatch rows) (ordersBatch_assembled rows)
  simp only [ordersBatch] at built declared
  simp only [rowsToOrdersBatch, declared, library.arrow.collects, bind, Option.bind]
  by_cases fits : textBytes (rows.map (·.note)) ≤ maxOffset
  · simp only [if_pos fits, built]
    rfl
  · simp only [if_neg fits]

/-- The record of an order, field by field. -/
structure Records (chrono : String → Option Int) (record : StringRecord) (row : OrderRow) : Prop where
  id : Ingest.parseI64 (record[0]?.getD "") = some row.id
  amount : Denotes (record[1]?.getD "").toList row.amount
  range : -maxAmount ≤ row.amount ∧ row.amount ≤ maxAmount
  placedAt : chrono (record[2]?.getD "") = some row.placedAt
  note : row.note.getD "" = record[3]?.getD "" ∧ row.note ≠ some ""

section Orders

variable {chrono : String → Option Int} {index : Nat} {record : StringRecord} {row : OrderRow}

theorem parseAmount_ok_iff {value : String} {amount : Int} :
    parseAmount index value = .ok amount ↔ Denotes value.toList amount ∧ -maxAmount ≤ amount ∧ amount ≤ maxAmount := by
  by_cases denoted : ∃ other, Denotes value.toList other
  · obtain ⟨other, denotes⟩ := denoted
    constructor
    · intro parsed
      rw [parseAmount_denoted index denotes] at parsed
      split at parsed
      · rename_i range
        cases parsed
        exact ⟨denotes, range⟩
      · cases parsed
    · rintro ⟨this, range⟩
      rw [parseAmount_denoted index this, if_pos range]
  · rw [parseAmount_undenoted index (not_exists.mp denoted)]
    constructor
    · intro parsed
      cases parsed
    · rintro ⟨denotes, _⟩
      exact absurd ⟨amount, denotes⟩ denoted

theorem parseId_ok_iff {id : Int} : parseId index record = .ok id ↔ Ingest.parseI64 (record[0]?.getD "") = some id := by
  unfold parseId
  dsimp only
  split
  · rename_i known
    simp [known]
  · rename_i unknown
    simp [unknown]

theorem parseTimestamp_ok_iff {value : String} {micros : Int} :
    parseTimestamp chrono index value = .ok micros ↔ chrono value = some micros := by
  unfold parseTimestamp
  cases chrono value <;> simp

/-- An empty note is none. -/
theorem note_iff {text : String} {note : Option String} :
    (match text with | "" => none | note => some note) = note ↔ note.getD "" = text ∧ note ≠ some "" := by
  split
  · cases note <;> simp
  · rename_i some'
    cases note with
    | none =>
      simp only [reduceCtorEq, Option.getD_none, ne_eq, not_false_eq_true, and_true, false_iff]
      exact fun same => some' same.symm
    | some given =>
      simp only [Option.some.injEq, Option.getD_some, ne_eq]
      constructor
      · rintro rfl
        exact ⟨rfl, some'⟩
      · rintro ⟨rfl, _⟩
        rfl

theorem parseOrderRow_ok_iff : parseOrderRow chrono index record = .ok row ↔ Records chrono record row := by
  obtain ⟨id, amount, placedAt, note⟩ := row
  simp only [parseOrderRow, Fallible.bind_ok_iff, Fallible.pure_ok_iff, Fallible.mapError_ok_iff,
    parseId_ok_iff, parseAmount_ok_iff, parseTimestamp_ok_iff, OrderRow.mk.injEq]
  constructor
  · rintro ⟨_, known, _, ⟨denotes, range⟩, _, placed, rfl, rfl, rfl, same⟩
    exact ⟨known, denotes, range, placed, note_iff.mp same⟩
  · rintro ⟨known, denotes, range, placed, same⟩
    exact ⟨_, known, _, ⟨denotes, range⟩, _, placed, rfl, rfl, rfl, note_iff.mpr same⟩

section Files

variable {ε T : Type} {io : PipelineIoError → ε} {parse : Nat → StringRecord → Except ε T}

/-- The records are read where each of them is, with its index. -/
theorem readRecords_ok_iff {records : List (Except String StringRecord)} {rows : List T} :
    readRecords io parse index records = .ok rows ↔ ∃ given : List StringRecord, records = given.map .ok ∧
      List.Forall₂ (fun slot row => parse slot.2 slot.1 = .ok row) (given.zipIdx index) rows := by
  induction records generalizing index rows with
  | nil =>
    rw [readRecords, Except.ok.injEq]
    constructor
    · rintro rfl
      exact ⟨[], rfl, .nil⟩
    · rintro ⟨given, none, pairs⟩
      cases List.map_eq_nil_iff.mp none.symm
      cases pairs
      rfl
  | cons record records ih =>
    simp only [readRecords, Fallible.bind_ok_iff, Fallible.pure_ok_iff, Fallible.mapError_ok_iff, ih]
    constructor
    · rintro ⟨here, rfl, first, parsed, others, ⟨given, rfl, pairs⟩, rfl⟩
      exact ⟨here :: given, rfl, .cons parsed pairs⟩
    · rintro ⟨given, split, pairs⟩
      obtain ⟨here, given, rfl, rfl, rfl⟩ := List.map_eq_cons_iff.mp split.symm
      obtain ⟨first, others, parsed, rest, rfl⟩ := List.forall₂_cons_left_iff.mp pairs
      exact ⟨here, rfl, first, parsed, others, ⟨given, rfl, rest⟩, rfl⟩

/-- Reading fails at the first record that is not read or not parsed. -/
theorem readRecords_error_iff {records : List (Except String StringRecord)} {failure : ε} :
    readRecords io parse index records = .error failure ↔
      ∃ (before : List StringRecord) (record : Except String StringRecord) (after : List (Except String StringRecord)),
      records = before.map .ok ++ record :: after ∧
      (∀ slot ∈ before.zipIdx index, ∃ row, parse slot.2 slot.1 = .ok row) ∧
      ((∃ source, record = .error source ∧ failure = io (.readRecord source)) ∨
        ∃ given, record = .ok given ∧ parse (index + before.length) given = .error failure) := by
  induction records generalizing index with
  | nil => simp [readRecords]
  | cons record records ih =>
    rw [readRecords, Fallible.bind_error_iff]
    cases record with
    | error source =>
      constructor
      · rintro (stopped | ⟨_, read, _⟩)
        · cases stopped
          exact ⟨[], _, records, rfl, by simp, Or.inl ⟨source, rfl, rfl⟩⟩
        · cases read
      · rintro ⟨before, record, after, split, _, stops⟩
        cases before with
        | nil =>
          cases split
          rcases stops with ⟨_, same, rfl⟩ | ⟨_, same, _⟩
          · cases same
            exact Or.inl rfl
          · cases same
        | cons => cases split
    | ok given =>
      simp only [Except.mapError, reduceCtorEq, Except.ok.injEq, exists_eq_left', false_or, Fallible.bind_error_iff, ih,
        pure, Except.pure, and_false, exists_false, or_false]
      constructor
      · rintro (stopped | ⟨row, parsed, before, record, after, rfl, passed, stops⟩)
        · exact ⟨[], _, records, rfl, by simp, Or.inr ⟨given, rfl, stopped⟩⟩
        · refine ⟨given :: before, record, after, rfl, List.forall_mem_cons.mpr ⟨⟨row, parsed⟩, passed⟩, ?_⟩
          rwa [List.length_cons, show index + (before.length + 1) = index + 1 + before.length by omega]
      · rintro ⟨before, record, after, split, passed, stops⟩
        cases before with
        | nil =>
          cases split
          rcases stops with ⟨_, same, _⟩ | ⟨_, same, stopped⟩
          · cases same
          · cases same
            exact Or.inl stopped
        | cons first before =>
          cases split
          rw [List.zipIdx_cons, List.forall_mem_cons] at passed
          obtain ⟨⟨row, parsed⟩, later⟩ := passed
          rw [List.length_cons, show index + (before.length + 1) = index + 1 + before.length by omega] at stops
          exact Or.inr ⟨row, parsed, before, record, after, rfl, later, stops⟩

end Files

theorem readCsvRows_orders_ok_iff {file : CsvFile} {rows : List OrderRow} :
    readCsvRows .io (parseOrderRow chrono) file = .ok rows ↔ ∃ records : List StringRecord,
      file.opened = .ok (records.map .ok) ∧ List.Forall₂ (Records chrono) records rows := by
  have unindexed : ∀ records : List StringRecord,
      List.Forall₂ (fun slot row => Records chrono slot.1 row) records.zipIdx rows ↔
        List.Forall₂ (Records chrono) records rows := by
    intro records
    rw [← List.forall₂_map_left_iff (f := Prod.fst), List.zipIdx_map_fst]
  unfold readCsvRows
  cases file.opened with
  | error source => simp
  | ok records => simp only [readRecords_ok_iff, parseOrderRow_ok_iff, unindexed, Except.ok.injEq]

section Outcomes

variable {library : OrdersLibrary} {file : CsvFile}

theorem fixtureToOrdersBatch_ok_iff {batch : OrdersBatch} : fixtureToOrdersBatch library chrono file = some (.ok batch) ↔
    ∃ rows, readCsvRows .io (parseOrderRow chrono) file = .ok rows ∧ textBytes (rows.map (·.note)) ≤ maxOffset ∧
      batch = ordersBatch rows := by
  unfold fixtureToOrdersBatch
  cases readCsvRows .io (parseOrderRow chrono) file with
  | error => simp
  | ok rows =>
    simp only [rowsToOrdersBatch_eq, Except.ok.injEq, exists_eq_left']
    split <;> simp_all [eq_comm]

theorem fixtureToOrdersBatch_error_iff {failure : OrdersError} :
    fixtureToOrdersBatch library chrono file = some (.error failure) ↔
      readCsvRows .io (parseOrderRow chrono) file = .error failure := by
  unfold fixtureToOrdersBatch
  cases readCsvRows .io (parseOrderRow chrono) file with
  | error => simp
  | ok rows =>
    simp only [rowsToOrdersBatch_eq, reduceCtorEq, iff_false]
    split <;> simp

theorem fixtureToOrdersBatch_none_iff : fixtureToOrdersBatch library chrono file = none ↔
    ∃ rows, readCsvRows .io (parseOrderRow chrono) file = .ok rows ∧ maxOffset < textBytes (rows.map (·.note)) := by
  unfold fixtureToOrdersBatch
  cases readCsvRows .io (parseOrderRow chrono) file with
  | error => simp
  | ok rows =>
    simp only [rowsToOrdersBatch_eq, Except.ok.injEq, exists_eq_left']
    split <;> simp_all

/-- Reading stops at the records that do not open, or at the first that is no
order. -/
theorem readCsvRows_orders_error_iff {failure : OrdersError} :
    readCsvRows .io (parseOrderRow chrono) file = .error failure ↔
      (∃ source, file.opened = .error source ∧ failure = .io (.openInput file.path source)) ∨
      ∃ (before : List StringRecord) (record : Except String StringRecord) (after : List (Except String StringRecord)),
        file.opened = .ok (before.map .ok ++ record :: after) ∧
        (∀ earlier ∈ before, ∃ row, Records chrono earlier row) ∧
        ((∃ source, record = .error source ∧ failure = .io (.readRecord source)) ∨
          ∃ given, record = .ok given ∧ (∀ row, ¬ Records chrono given row) ∧
            parseOrderRow chrono before.length given = .error failure) := by
  have refused : ∀ given index, parseOrderRow chrono index given = .error failure →
      ∀ row, ¬ Records chrono given row := by
    intro given index stopped row read
    cases stopped.symm.trans (parseOrderRow_ok_iff.mpr read)
  unfold readCsvRows
  cases opened : file.opened with
  | error source => simp [eq_comm]
  | ok records =>
    simp only [readRecords_error_iff, parseOrderRow_ok_iff, reduceCtorEq, false_and, exists_false, false_or,
      Except.ok.injEq, Nat.zero_add]
    refine exists_congr fun before => exists_congr fun record => exists_congr fun after => and_congr_right fun _ => ?_
    refine and_congr ?_ (or_congr_right (exists_congr fun given => and_congr_right fun _ => ?_))
    · constructor
      · intro passed earlier member
        obtain ⟨i, inside, rfl⟩ := List.getElem_of_mem member
        exact passed (before[i], i) (List.mk_mem_zipIdx_iff_getElem?.mpr (List.getElem?_eq_getElem inside))
      · intro passed slot member
        exact passed slot.1 (List.fst_mem_of_mem_zipIdx member)
    · exact ⟨fun stopped => ⟨refused given _ stopped, stopped⟩, And.right⟩

end Outcomes

/-- The amounts of a batch of orders have at most ten digits. -/
theorem fits_amounts {records : List StringRecord} {rows : List OrderRow}
    (pairs : List.Forall₂ (Records chrono) records rows) : ∀ row ∈ rows, Fits 10 row.amount := by
  intro row member
  obtain ⟨record, _, read⟩ := Fallible.exists_of_forall₂ pairs member
  have range := read.range
  rw [maxAmount] at range
  unfold Fits
  omega

/-- However the amounts of orders are split and merged, their range is the
greatest less the least. -/
theorem amountRange_of_orders {records : List StringRecord} {rows : List OrderRow}
    (pairs : List.Forall₂ (Records chrono) records rows) (calls : Calls Decimal128Array)
    (split : List.Perm (calls.batches.flatMap Decimal128Array.cells) (ordersBatch rows).amounts.cells) :
    (rows = [] ∧ (calls.run amountRange).evaluate = ⟨none, 11, 2⟩) ∨
      ∃ least greatest, IsLeast {amount | ∃ row ∈ rows, row.amount = amount} least ∧
        IsGreatest {amount | ∃ row ∈ rows, row.amount = amount} greatest ∧
        (calls.run amountRange).evaluate = ⟨some (greatest - least), 11, 2⟩ := by
  have fed : ∀ amount, some amount ∈ calls.batches.flatMap Decimal128Array.cells ↔ ∃ row ∈ rows, row.amount = amount := by
    intro amount
    rw [split.mem_iff]
    simp [ordersBatch]
  have within : ∀ amount, some amount ∈ calls.batches.flatMap Decimal128Array.cells → Fits 10 amount := by
    intro amount member
    obtain ⟨row, inside, rfl⟩ := (fed amount).mp member
    exact fits_amounts pairs row inside
  rcases evaluate_run calls within with ⟨nothing, result⟩ | ⟨least, greatest, isLeast, isGreatest, result⟩
  · left
    refine ⟨List.eq_nil_iff_forall_not_mem.mpr fun row member => ?_, result⟩
    exact nothing row.amount ((fed row.amount).mpr ⟨row, member, rfl⟩)
  · simp only [fed] at isLeast isGreatest
    exact Or.inr ⟨least, greatest, isLeast, isGreatest, result⟩

/-- A file of orders is read exactly where every record has an integer, an
amount in range, a point of time and a note and the notes together fit the
offsets of a string array, and into these; it fails over the first record that
has not, and panics over more notes. And however the amounts that were read are
split and merged, their range is the greatest less the least. -/
theorem orders_read_exactly (library : OrdersLibrary) (chrono : String → Option Int) (file : CsvFile) :
    (∀ batch, fixtureToOrdersBatch library chrono file = some (.ok batch) ↔
      ∃ (records : List StringRecord) (rows : List OrderRow), file.opened = .ok (records.map .ok) ∧
        List.Forall₂ (Records chrono) records rows ∧ textBytes (rows.map (·.note)) ≤ maxOffset ∧
        batch = ordersBatch rows) ∧
    (∀ failure, fixtureToOrdersBatch library chrono file = some (.error failure) ↔
      (∃ source, file.opened = .error source ∧ failure = .io (.openInput file.path source)) ∨
      ∃ (before : List StringRecord) (record : Except String StringRecord) (after : List (Except String StringRecord)),
        file.opened = .ok (before.map .ok ++ record :: after) ∧
        (∀ earlier ∈ before, ∃ row, Records chrono earlier row) ∧
        ((∃ source, record = .error source ∧ failure = .io (.readRecord source)) ∨
          ∃ given, record = .ok given ∧ (∀ row, ¬ Records chrono given row) ∧
            parseOrderRow chrono before.length given = .error failure)) ∧
    (fixtureToOrdersBatch library chrono file = none ↔
      ∃ (records : List StringRecord) (rows : List OrderRow), file.opened = .ok (records.map .ok) ∧
        List.Forall₂ (Records chrono) records rows ∧ maxOffset < textBytes (rows.map (·.note))) ∧
    ∀ records rows batch, List.Forall₂ (Records chrono) records rows → batch = ordersBatch rows →
      ∀ calls : Calls Decimal128Array, List.Perm (calls.batches.flatMap Decimal128Array.cells) batch.amounts.cells →
        (rows = [] ∧ (calls.run amountRange).evaluate = ⟨none, 11, 2⟩) ∨
        ∃ least greatest, IsLeast {amount | ∃ row ∈ rows, row.amount = amount} least ∧
          IsGreatest {amount | ∃ row ∈ rows, row.amount = amount} greatest ∧
          (calls.run amountRange).evaluate = ⟨some (greatest - least), 11, 2⟩ := by
  refine ⟨fun batch => ?_, fun failure => ?_, ?_, ?_⟩
  · rw [fixtureToOrdersBatch_ok_iff]
    constructor
    · rintro ⟨rows, read, fits, rfl⟩
      obtain ⟨records, opened, pairs⟩ := readCsvRows_orders_ok_iff.mp read
      exact ⟨records, rows, opened, pairs, fits, rfl⟩
    · rintro ⟨records, rows, opened, pairs, fits, rfl⟩
      exact ⟨rows, readCsvRows_orders_ok_iff.mpr ⟨records, opened, pairs⟩, fits, rfl⟩
  · exact fixtureToOrdersBatch_error_iff.trans readCsvRows_orders_error_iff
  · rw [fixtureToOrdersBatch_none_iff]
    constructor
    · rintro ⟨rows, read, large⟩
      obtain ⟨records, opened, pairs⟩ := readCsvRows_orders_ok_iff.mp read
      exact ⟨records, rows, opened, pairs, large⟩
    · rintro ⟨records, rows, opened, pairs, large⟩
      exact ⟨rows, readCsvRows_orders_ok_iff.mpr ⟨records, opened, pairs⟩, large⟩
  · rintro records rows batch pairs rfl calls split
    exact amountRange_of_orders pairs calls split

/-- One order, of a hundred. -/
theorem oneOrder_read :
    fixtureToOrdersBatch .documented (fun text => if text = "2026-01-01T00:00:00" then some 1767225600000000 else none)
        { path := "orders.csv", opened := .ok [.ok ["1", "100.00", "2026-01-01T00:00:00", ""]] } =
      some (.ok
        { ids := [some 1], amounts := ⟨[some 10000], 10, 2⟩, placedAts := [some 1767225600000000], notes := [none] }) := by
  refine ((orders_read_exactly .documented _ _).1 _).mpr
    ⟨[["1", "100.00", "2026-01-01T00:00:00", ""]], [⟨1, 10000, 1767225600000000, none⟩], rfl, .cons ?_ .nil, by decide, rfl⟩
  have parsed : parseOrderRow (fun text => if text = "2026-01-01T00:00:00" then some 1767225600000000 else none) 0
      ["1", "100.00", "2026-01-01T00:00:00", ""] = .ok ⟨1, 10000, 1767225600000000, none⟩ := by rfl
  exact parseOrderRow_ok_iff.mp parsed

end Orders

end Datacrate.Query
