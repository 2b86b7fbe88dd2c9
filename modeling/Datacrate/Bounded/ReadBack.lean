import Datacrate.Bounded.Completion
import Datacrate.Bounded.Liveness
import Datacrate.Bounded.Reporting
import Datacrate.Ingest.ReadBack

namespace Datacrate.Bounded

open Datacrate.Ingest Chunks

/-- The rows of a batch are checked as themselves. -/
theorem checkedRows_rows (rows : List Row) : (checkedRows rows).rows = rows := by
  have cells := CheckedIngestBatch.rows_cells (tryNew_rowBatch rows)
  rw [rowBatch_rows] at cells
  exact (Row.cells_injective.list_map cells).symm

theorem flatMap_rows_chunks {rows : List Row} {batchSize : Nat} (positive : 0 < batchSize) :
    ((chunksOf batchSize rows).map rowBatch).flatMap RecordBatch.rows = rows.map Row.cells := by
  have each : (fun group => (rowBatch group).rows) = List.map Row.cells := funext rowBatch_rows
  rw [List.flatMap_map, each, List.flatMap_def, ← List.map_flatten, flatten_chunksOf positive]

theorem sum_numRows (batches : List RecordBatch) :
    (batches.map (·.numRows)).sum = (batches.flatMap RecordBatch.rows).length := by
  rw [List.length_flatMap]
  exact congrArg List.sum (List.map_congr_left fun batch _ => by simp [RecordBatch.rows])

/-- The file of a run that reports success has the rows of one valid batch,
with the count and the digest of the report. If the text of these fits the
offsets of a string array, the file reads back as that batch, whatever batches
the reader makes; and it is the batch of the whole input, where nothing
transforms it. -/
theorem published_reads_back (env : Setting) (transform : Option Callback) (s : Pipeline) (report : PipelineReport)
    (reach : Transition.Reachable .initial (PipelineMoves env transform) s) (done : s.main = .done (.ok report)) :
    ∃ written rows checked, s.published = some (written, true) ∧
      written.flatMap RecordBatch.rows = (rowBatch rows).rows ∧ CheckedIngestBatch.tryNew (rowBatch rows) = .ok checked ∧
      (rowBatch rows).numRows = report.rowsWritten ∧
      accumulateBatchDigest env.hashRow 0 checked = report.contentDigest ∧
      (TextFits rows →
        (∀ path decoded, Regroups written decoded →
          readParquet env.arrow { path, opened := .ok (.ok (decoded.map .ok)) } = some (.ok (rowBatch rows))) ∧
        (transform = none → fixtureToRecordBatches env.arrow env.file env.config.batchSize = some (.ok written) ∧
          fixtureToRecordBatch env.arrow env.file = some (.ok (rowBatch rows)))) := by
  obtain ⟨⟨written, closed⟩, published, ⟨complete, _⟩, certified⟩ := pipeline_done_certified reach done
  dsimp only at complete certified
  subst complete
  obtain ⟨rows, cells, digest⟩ := certified.digest
  refine ⟨written, rows, checkedRows rows, published, cells.trans (rowBatch_rows rows).symm, tryNew_rowBatch rows,
    ?_, ?_, fun text => ?_⟩
  · rw [certified.rows, sum_numRows, cells, List.length_map]
    rfl
  · rw [accumulateBatchDigest_eq, checkedRows_rows, digest]
    exact zero_add _
  · refine ⟨fun path decoded regroups => regroups.read (regroups.rows.trans cells) text env.arrow path,
      fun untransformed => ?_⟩
    subst untransformed
    obtain ⟨parsed, read, same, _⟩ := (reachable_pipeline reach).faithful done
    obtain rfl : written = (chunksOf env.config.batchSize parsed).map rowBatch := by
      rw [published, Option.some.injEq, Prod.mk.injEq] at same
      exact same.1
    rw [flatMap_rows_chunks env.config.batchSize_pos] at cells
    obtain rfl := Row.cells_injective.list_map cells
    constructor
    · exact fixtureToRecordBatches_eq read env.config.batchSize_pos fun group member =>
        text.part (infix_of_mem_chunksOf env.config.batchSize_pos member)
    · rw [fixtureToRecordBatch, read]
      exact batchFromRows_eq_some.mpr ⟨text, rfl⟩

theorem twoRows_feasible : Feasible twoRows [ada, bob] where
  parsed := by decide
  within := fun _ _ _ given => nomatch given
  text := by
    have text : TextFits [ada, bob] := by decide
    exact fun group member => text.part (infix_of_mem_chunksOf Nat.one_pos member)
  batch := by simp [Allocates, twoRows, Usize.range]
  slots := fun _ => by simp [Allocates, twoRows, Usize.range]

/-- The two batches that were written come back as one, also when the reader
makes one of them. -/
theorem twoRows_read_back :
    ∃ s report, Transition.Reachable .initial (PipelineMoves twoRows none) s ∧ s.main = .done (.ok report) ∧
      s.published = some ([rowBatch [ada], rowBatch [bob]], true) ∧
      readParquet .documented { path := "output.parquet", opened := .ok (.ok [.ok (rowBatch [ada, bob])]) } =
        some (.ok (rowBatch [ada, bob])) ∧ report.rowsWritten = 2 := by
  obtain ⟨s, worked, report, done⟩ := (twoRows_feasible.completes .start).occurs .start
  have reach : Transition.Reachable .initial (PipelineMoves twoRows none) s := worked.mono fun step => ⟨_, step⟩
  obtain ⟨written, rows, _, published, cells, _, count, _, reads⟩ := published_reads_back twoRows none s report reach done
  obtain rfl : written = [rowBatch [ada], rowBatch [bob]] := by
    obtain ⟨parsed, read, same, _⟩ := (reachable_pipeline reach).faithful done
    rw [twoRows_feasible.parsed, Except.ok.injEq] at read
    rw [published, Option.some.injEq, Prod.mk.injEq] at same
    rw [same.1, ← read]
    simp [twoRows, chunksOf]
  obtain rfl : rows = [ada, bob] := by
    simp only [List.flatMap_cons, List.flatMap_nil, rowBatch_rows, List.append_nil, ← List.map_append] at cells
    exact (Row.cells_injective.list_map cells).symm
  obtain ⟨back, _⟩ := reads (by decide)
  refine ⟨s, report, reach, done, published, back "output.parquet" [rowBatch _] ⟨?_, ?_, ?_⟩, count.symm⟩
  · simp [rowBatch]
  · simp [rowBatch, rowColumns, Column.Native]
  · simp [rowBatch_rows]

end Datacrate.Bounded
