import Iperf3Rs.ExpositionText
import Iperf3Rs.LineText

/-! The parser of the text exposition format on written families, line by line. -/

namespace Exposition

variable {V : Type} (T : NumberText V)

theorem parseValue_text {rest : List Char} {v : V}
    (h : words rest = words (T.toText v).toList) : parseValue T.ofText rest = some v := by
  obtain ⟨hne, hall⟩ := isNumberText_all (T.isNumberText_toText v)
  have hwords := words_singleton hne fun c hc =>
    isBlank_eq_false_of_class (hall c hc) (by decide) (by decide)
  rw [parseValue, h, hwords]
  exact T.parse_toText v

theorem labelSetText_eq_cons (labels : List (String × String)) (value : List Char) :
    ∃ c rest, labelSetText labels ++ ' ' :: value = c :: rest ∧ isMetricChar c = false := by
  cases labels with
  | nil => exact ⟨' ', value, rfl, by decide⟩
  | cons label labels =>
    exact ⟨'{', _, List.cons_append, by decide⟩

theorem parseSample_text {sample : Sample V} (h : sample.WellFormed) :
    parseSample T.ofText (sampleText T sample) = some sample := by
  have hall := isMetricName_all h.name
  obtain ⟨rest, hlabels, hwords⟩ := parseLabelSet_text h.labelNames h.labelSet
    (T.isNumberText_toText sample.value)
  obtain ⟨c, later, htext, hc⟩ := labelSetText_eq_cons sample.labels
    (T.toText sample.value).toList
  rw [htext] at hlabels
  rw [sampleText, htext, parseSample, takeWhile_stop hall hc, dropWhile_stop hall hc,
    if_pos h.name, hlabels]
  simp only [Option.bind_some, parseValue_text T hwords, Option.map_some, String.ofList_toList]

theorem sampleText_eq_cons {sample : Sample V} (h : sample.WellFormed) :
    ∃ first rest, sampleText T sample = first :: rest ∧ isMetricChar first = true := by
  cases hname : sample.name.toList with
  | nil =>
    have hbad := h.name
    rw [hname] at hbad
    cases hbad
  | cons first name =>
    have hfirst := isMetricName_all h.name first (by simp [hname])
    exact ⟨first, _, by rw [sampleText, hname, List.cons_append], hfirst⟩

theorem parseLine_sampleText {sample : Sample V} (h : sample.WellFormed) :
    parseLine T.ofText (sampleText T sample) = some (some (.sample sample)) := by
  obtain ⟨first, rest, htext, hfirst⟩ := sampleText_eq_cons T h
  have hskip : skipBlanks (sampleText T sample) = sampleText T sample := by
    rw [htext, skipBlanks_cons (isBlank_eq_false_of_class hfirst (by decide) (by decide))]
  rw [parseLine, hskip]
  split
  · next hempty =>
    rw [htext] at hempty
    cases hempty
  · next comment hcomment =>
    rw [htext] at hcomment
    exact absurd (List.cons.inj hcomment).1 (ne_of_class hfirst (by decide))
  · rw [parseSample_text T h]
    rfl

theorem parseKind_text (kind : Kind) : parseKind kind.text.toList = some kind := by
  cases kind <;> simp [parseKind, Kind.text]

theorem kindText_words (kind : Kind) : words kind.text.toList = [kind.text.toList] := by
  cases kind <;> decide

theorem parseLine_typeText {name : String} (h : isMetricName name.toList = true) (kind : Kind) :
    parseLine T.ofText (typeText name kind) = some (some (.type name kind)) := by
  have hne : name.toList ≠ [] := by
    intro hempty
    rw [hempty] at h
    cases h
  have hname : ∀ c ∈ name.toList, isBlank c = false := fun c hc =>
    isBlank_eq_false_of_class (isMetricName_all h c hc) (by decide) (by decide)
  have htype : ∀ c ∈ "TYPE".toList, isBlank c = false := fun c hc =>
    isBlank_eq_false_of_class
      (List.all_eq_true.mp (by decide : "TYPE".toList.all isMetricChar = true) c hc)
      (by decide) (by decide)
  have hwords : words (' ' :: ("TYPE".toList ++ ' ' :: (name.toList ++ ' ' :: kind.text.toList))) =
      ["TYPE".toList, name.toList, kind.text.toList] := by
    rw [words_blank, words_cons (by decide) htype, words_cons hne hname, kindText_words]
  rw [typeText, parseLine, skipBlanks_cons (by decide)]
  simp only [hwords, if_true, parseType, h, parseKind_text, Option.map_some, String.ofList_toList]

def Line.WellFormed : Line V → Prop
  | .type name _ => isMetricName name.toList = true
  | .sample entry => entry.WellFormed

theorem parseLine_lineText {line : Line V} (h : line.WellFormed) :
    parseLine T.ofText (lineText T line) = some (some line) := by
  cases line with
  | type name kind => exact parseLine_typeText T h kind
  | sample sample => exact parseLine_sampleText T h

theorem newline_not_mem_labelText {label : String × String}
    (h : isLabelName label.1.toList = true) : '\n' ∉ labelText label := by
  have hname := not_mem_of_class (isLabelName_all h) (by decide : isLabelChar '\n' = false)
  have hvalue := newline_not_mem_escape label.2.toList
  simp only [labelText, List.mem_append, List.mem_cons, not_or]
  exact ⟨hname, by decide, by decide, hvalue, by simp⟩

theorem newline_not_mem_labelSetText {labels : List (String × String)}
    (h : ∀ label ∈ labels, isLabelName label.1.toList = true) : '\n' ∉ labelSetText labels := by
  cases labels with
  | nil => simp [labelSetText]
  | cons label labels =>
    have hlater : '\n' ∉ labels.flatMap (',' :: labelText ·) := by
      intro hmem
      obtain ⟨l, hl, hc⟩ := List.mem_flatMap.mp hmem
      rcases List.mem_cons.mp hc with hcomma | hc
      · exact absurd hcomma (by decide)
      · exact newline_not_mem_labelText (h l (List.mem_cons_of_mem _ hl)) hc
    have hlabel := newline_not_mem_labelText (h label List.mem_cons_self)
    simp only [labelSetText, List.mem_cons, List.mem_append, not_or]
    exact ⟨by decide, hlabel, hlater, by decide, by simp⟩

theorem newline_not_mem_lineText {line : Line V} (h : line.WellFormed) :
    '\n' ∉ lineText T line := by
  cases line with
  | type name kind =>
    have hname := not_mem_of_class (isMetricName_all h) (by decide : isMetricChar '\n' = false)
    have hkind : '\n' ∉ kind.text.toList := by cases kind <;> decide
    simp only [lineText, typeText, List.mem_append, List.mem_cons, not_or]
    exact ⟨by decide, by decide, by decide, by decide, hname, by decide, hkind⟩
  | sample sample =>
    have hname := not_mem_of_class (isMetricName_all h.name)
      (by decide : isMetricChar '\n' = false)
    have hvalue := T.not_mem_toText sample.value (by decide : isNumberChar '\n' = false)
    simp only [lineText, sampleText, List.mem_append, List.mem_cons, not_or]
    exact ⟨hname, newline_not_mem_labelSetText h.labelNames, by decide, hvalue⟩

theorem splitLines_lines {lines : List (List Char)} (h : ∀ line ∈ lines, '\n' ∉ line) :
    splitLines (lines.flatMap (· ++ ['\n'])) = some lines := by
  have hsplit := LineText.splitOn_lines h
  rw [LineText.lines] at hsplit
  simp [splitLines, hsplit]

theorem mapM_parseLine {lines : List (Line V)} (h : ∀ line ∈ lines, line.WellFormed) :
    (lines.map (lineText T)).mapM (parseLine T.ofText) = some (lines.map some) := by
  induction lines with
  | nil => rfl
  | cons line lines ih =>
    have hline := parseLine_lineText T (h line List.mem_cons_self)
    have hlater := ih fun l hl => h l (List.mem_cons_of_mem _ hl)
    rw [List.map_cons, List.mapM_cons, hline, hlater]
    rfl

theorem group_samples (samples : List (Sample V)) (lines : List (Line V)) :
    group (samples.map .sample ++ lines) =
      (group lines).map fun (later, families) => (samples ++ later, families) := by
  induction samples with
  | nil =>
    rw [List.map_nil, List.nil_append]
    cases group lines <;> rfl
  | cons sample samples ih =>
    rw [List.map_cons, List.cons_append, group, ih]
    cases group lines <;> rfl

theorem group_families {families : List (Family V)} (h : ∀ family ∈ families, family.WellFormed)
    (hnames : (families.map Family.name).Nodup) :
    group (families.flatMap familyLines) = some ([], families) := by
  induction families with
  | nil => rfl
  | cons family families ih =>
    rw [List.map_cons, List.nodup_cons] at hnames
    have hlater := ih (fun f hf => h f (List.mem_cons_of_mem _ hf)) hnames.2
    have howns : family.samples.all (family.kind.owns family.name ·.name) = true :=
      List.all_eq_true.mpr (h family List.mem_cons_self).owns
    rw [List.flatMap_cons, familyLines, List.cons_append, group, group_samples, hlater]
    have hfresh : (families.map Family.name).contains family.name = false := by
      simpa using hnames.1
    simp only [Option.map_some, Option.bind_some, List.append_nil, howns, hfresh, Bool.not_false,
      Bool.and_self, if_true]

theorem line_wellFormed {families : List (Family V)} (h : ∀ family ∈ families, family.WellFormed) :
    ∀ line ∈ families.flatMap familyLines, line.WellFormed := by
  intro line hline
  obtain ⟨family, hfamily, hmem⟩ := List.mem_flatMap.mp hline
  rcases List.mem_cons.mp hmem with rfl | hmem
  · exact (h family hfamily).name
  · obtain ⟨sample, hsample, rfl⟩ := List.mem_map.mp hmem
    exact (h family hfamily).samples sample hsample

theorem parse_render {families : List (Family V)} (h : ∀ family ∈ families, family.WellFormed)
    (hnames : (families.map Family.name).Nodup) :
    parse T.ofText (render T families) = some families := by
  have hlines := line_wellFormed h
  have hsplit : splitLines (render T families) =
      some ((families.flatMap familyLines).map (lineText T)) := by
    rw [render, ← List.flatMap_map (lineText T) (· ++ ['\n'])]
    refine splitLines_lines fun text htext => ?_
    obtain ⟨line, hline, rfl⟩ := List.mem_map.mp htext
    exact newline_not_mem_lineText T (hlines line hline)
  have hcontent : ((families.flatMap familyLines).map some).filterMap id =
      families.flatMap familyLines := by
    rw [List.filterMap_map, Function.id_comp]
    exact List.filterMap_some
  rw [parse, hsplit, Option.bind_some, mapM_parseLine T hlines, Option.bind_some, hcontent,
    group_families h hnames]
  rfl

end Exposition
