import Datacrate.Remote.Publish

namespace Datacrate.Remote

section Keys

variable (encoding : PartEncoding) (outputKey : ObjectPath) {runId : String}

theorem keyFor_ne_output : keyFor encoding outputKey ≠ outputKey :=
  ObjectPath.ofText_heavier encoding outputKey (by decide)

/-- A run id gives the staging key a part of its own. -/
theorem encodedParts_runId (suffix : String) : encodedParts encoding ("datacrate-run-" ++ suffix).toList ≠ [] := by
  intro empty
  have weight := ObjectPath.weight_ofText encoding ("datacrate-run-" ++ suffix)
  have prefixed : ((("datacrate-run-" ++ suffix).toList).filter (· ≠ '/')).length =
      14 + (suffix.toList.filter (· ≠ '/')).length := by
    rw [String.toList_append, List.filter_append, List.length_append]
    rfl
  have none : (ObjectPath.ofText encoding ("datacrate-run-" ++ suffix)).weight = 0 := by
    rw [ObjectPath.weight, show (ObjectPath.ofText encoding ("datacrate-run-" ++ suffix)).parts = [] from empty]
    rfl
  omega

theorem stagingKey_ne_output : outputKey ≠ stagingKey encoding outputKey runId := by
  unfold stagingKey
  rw [String.append_assoc]
  refine (ObjectPath.ofText_heavier encoding outputKey ?_).symm
  rw [String.toList_append, List.filter_append, List.length_append]
  have suffix : (".staging/".toList.filter (· ≠ '/')).length = 8 := by decide
  omega

theorem stagingKey_ne_keyFor (named : ∃ suffix, runId = "datacrate-run-" ++ suffix) :
    keyFor encoding outputKey ≠ stagingKey encoding outputKey runId := by
  obtain ⟨suffix, rfl⟩ := named
  have split : outputKey.text ++ ".staging/" ++ ("datacrate-run-" ++ suffix) =
      outputKey.text ++ ".staging" ++ "/" ++ ("datacrate-run-" ++ suffix) := by
    simp only [String.append_assoc]
    rfl
  unfold keyFor stagingKey
  rw [split]
  exact ObjectPath.ofText_deeper encoding outputKey (by decide) (by decide) (by decide) (by decide)
    (encodedParts_runId encoding suffix)

end Keys

section Injectivity

/-- The segments of a key's text, which a suffix lengthens at the end. -/
theorem ObjectPath.splitOn_text (path : ObjectPath) : ∃ init last,
    (∀ suffix : List Char, '/' ∉ suffix → (path.text.toList ++ suffix).splitOn '/' = init ++ [last ++ suffix]) ∧
      (∀ part ∈ init, part ≠ []) ∧ path.parts.map String.toList = (init ++ [last]).filter (· ≠ []) := by
  obtain ⟨init, last, split⟩ := splitOn_append_suffix path.text.toList
  have whole : path.text.toList.splitOn '/' = init ++ [last] := by simpa using split [] (by simp)
  have text : path.text.toList = ['/'].intercalate (path.parts.map String.toList) := by
    simp [ObjectPath.text]
  have nonempty : ∀ part ∈ path.parts.map String.toList, part ≠ [] ∧ '/' ∉ part := by
    intro part member
    obtain ⟨raw, inside, rfl⟩ := List.mem_map.mp member
    obtain ⟨nonempty, plain⟩ := path.clean raw inside
    exact ⟨by simpa using nonempty, plain⟩
  refine ⟨init, last, split, ?_⟩
  by_cases empty : path.parts = []
  · rw [text, empty] at whole
    have single : init ++ [last] = [[]] := by simpa using whole.symm
    obtain ⟨rfl, same⟩ := List.append_eq_singleton_iff.mp single |>.resolve_right (by simp)
    obtain rfl : last = [] := by simpa using same
    simp [empty]
  · have segments : path.text.toList.splitOn '/' = path.parts.map String.toList := by
      rw [text]
      exact List.splitOn_intercalate '/' (fun part member => (nonempty part member).2) (by simpa using empty)
    rw [whole] at segments
    rw [← segments] at nonempty
    refine ⟨fun part member => (nonempty part (List.mem_append_left _ member)).1, ?_⟩
    rw [← segments, eq_comm, List.filter_eq_self]
    intro part member
    simpa using (nonempty part member).1

/-- Text without empty segments keeps them all. -/
theorem encodedParts_of_segments (encoding : PartEncoding) {text : List Char} {segments : List (List Char)}
    (split : text.splitOn '/' = segments) (nonempty : ∀ part ∈ segments, part ≠ []) :
    encodedParts encoding text = segments.map fun part => encoding.encode (String.ofList part) := by
  unfold encodedParts
  rw [split, List.filter_eq_self]
  intro encoded member
  obtain ⟨part, inside, rfl⟩ := List.mem_map.mp member
  simpa using encoding.encode_ne_empty (nonempty part inside)

theorem encode_segments_injective (encoding : PartEncoding) {first second : List (List Char)}
    (same : (first.map fun part => encoding.encode (String.ofList part)) =
      second.map fun part => encoding.encode (String.ofList part)) : first = second := by
  refine List.map_injective_iff.mpr (fun left right equal => ?_) same
  exact String.ofList_injective (encoding.injective equal)

/-- The keys of texts that extend a key, by its segments. -/
theorem ObjectPath.ofText_parts (encoding : PartEncoding) (path : ObjectPath) : ∃ init last,
    path.parts.map String.toList = (init ++ [last]).filter (· ≠ []) ∧
      (∀ suffix : String, '/' ∉ suffix.toList → suffix ≠ "" →
        (ObjectPath.ofText encoding (path.text ++ suffix)).parts =
          (init ++ [last ++ suffix.toList]).map fun part => encoding.encode (String.ofList part)) ∧
      ∀ suffix tail : String, '/' ∉ suffix.toList → '/' ∉ tail.toList → suffix ≠ "" → tail ≠ "" →
        (ObjectPath.ofText encoding (path.text ++ suffix ++ "/" ++ tail)).parts =
          (init ++ [last ++ suffix.toList] ++ [tail.toList]).map fun part =>
            encoding.encode (String.ofList part) := by
  obtain ⟨init, last, split, nonempty, parts⟩ := path.splitOn_text
  have extended : ∀ suffix : String, suffix ≠ "" → ∀ part ∈ init ++ [last ++ suffix.toList], part ≠ [] := by
    intro suffix more part member
    rcases List.mem_append.mp member with inside | same
    · exact nonempty part inside
    · rw [List.mem_singleton.mp same]
      simp [more]
  refine ⟨init, last, parts, fun suffix plain more => ?_, fun suffix tail plain tailPlain more tailMore => ?_⟩
  · refine encodedParts_of_segments encoding ?_ (extended suffix more)
    rw [String.toList_append, split _ plain]
  · refine encodedParts_of_segments encoding ?_ fun part member => ?_
    · have joined : (path.text ++ suffix ++ "/" ++ tail).toList =
          (path.text.toList ++ suffix.toList) ++ '/' :: tail.toList := by simp
      rw [joined, List.splitOn_append_cons_self, split _ plain, List.splitOn_eq_singleton tailPlain]
    · rcases List.mem_append.mp member with inside | same
      · exact extended suffix more part inside
      · rw [List.mem_singleton.mp same]
        simp [tailMore]

theorem ObjectPath.eq_of_segments {first second : ObjectPath} {init init' : List (List Char)}
    {last last' suffix : List Char} (parts : first.parts.map String.toList = (init ++ [last]).filter (· ≠ []))
    (parts' : second.parts.map String.toList = (init' ++ [last']).filter (· ≠ []))
    (same : init ++ [last ++ suffix] = init' ++ [last' ++ suffix]) : first = second := by
  obtain ⟨rfl, ends⟩ := List.append_inj' same rfl
  have lasts : last = last' := List.append_left_injective suffix (List.singleton_inj.mp ends)
  rw [← lasts, ← parts] at parts'
  have equal : second.parts = first.parts :=
    List.map_injective_iff.mpr (fun _ _ => String.toList_injective) parts'
  cases first
  cases second
  cases equal
  rfl

/-- The marker's key tells the output's. -/
theorem keyFor_injective (encoding : PartEncoding) : Function.Injective (keyFor encoding) := by
  intro first second same
  obtain ⟨init, last, parts, split, _⟩ := first.ofText_parts encoding
  obtain ⟨init', last', parts', split', _⟩ := second.ofText_parts encoding
  have segments := congrArg ObjectPath.parts same
  unfold keyFor at segments
  rw [split _ (by decide) (by decide), split' _ (by decide) (by decide)] at segments
  exact ObjectPath.eq_of_segments parts parts' (encode_segments_injective encoding segments)

/-- The staging key tells the output's key and the run id. -/
theorem stagingKey_injective (encoding : PartEncoding) {first second : ObjectPath} {runId runId' : String}
    (plain : '/' ∉ runId.toList) (plain' : '/' ∉ runId'.toList) (nonempty : runId ≠ "") (nonempty' : runId' ≠ "")
    (same : stagingKey encoding first runId = stagingKey encoding second runId') :
    first = second ∧ runId = runId' := by
  obtain ⟨init, last, parts, _, split⟩ := first.ofText_parts encoding
  obtain ⟨init', last', parts', _, split'⟩ := second.ofText_parts encoding
  have joined : ∀ (path : ObjectPath) (tail : String),
      path.text ++ ".staging/" ++ tail = path.text ++ ".staging" ++ "/" ++ tail := by
    intro path tail
    simp only [String.append_assoc]
    rfl
  have segments := congrArg ObjectPath.parts same
  unfold stagingKey at segments
  rw [joined, joined, split _ _ (by decide) plain (by decide) nonempty,
    split' _ _ (by decide) plain' (by decide) nonempty'] at segments
  obtain ⟨front, back⟩ := List.append_inj' (encode_segments_injective encoding segments) rfl
  exact ⟨ObjectPath.eq_of_segments parts parts' front, String.toList_injective (List.singleton_inj.mp back)⟩

end Injectivity

end Datacrate.Remote
