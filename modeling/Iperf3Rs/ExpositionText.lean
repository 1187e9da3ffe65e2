import Iperf3Rs.Exposition

/-! Writing metric families in the text exposition format: what is written is parsed back to the
same families. -/

namespace Exposition

/-- Numbers as texts that the parser reads back. -/
structure NumberText (V : Type) where
  toText : V → String
  ofText : String → Option V
  parse_toText (v : V) : parseNumber ofText (toText v).toList = some v

structure Sample.WellFormed {V : Type} (sample : Sample V) : Prop where
  name : isMetricName sample.name.toList = true
  labelNames : ∀ label ∈ sample.labels, isLabelName label.1.toList = true
  labelSet : isLabelSet sample.labels = true

structure Family.WellFormed {V : Type} (family : Family V) : Prop where
  name : isMetricName family.name.toList = true
  owns : ∀ sample ∈ family.samples, family.kind.owns family.name sample.name = true
  samples : ∀ sample ∈ family.samples, sample.WellFormed

section Text

def Kind.text : Kind → String
  | .counter => "counter"
  | .gauge => "gauge"
  | .histogram => "histogram"
  | .summary => "summary"
  | .untyped => "untyped"

def labelText (label : String × String) : List Char :=
  label.1.toList ++ '=' :: '"' :: (label.2.toList.flatMap escapeChar ++ ['"'])

def labelSetText : List (String × String) → List Char
  | [] => []
  | label :: labels => '{' :: (labelText label ++ (labels.flatMap (',' :: labelText ·) ++ ['}']))

variable {V : Type} (T : NumberText V)

def sampleText (sample : Sample V) : List Char :=
  sample.name.toList ++ (labelSetText sample.labels ++ ' ' :: (T.toText sample.value).toList)

def typeText (name : String) (kind : Kind) : List Char :=
  '#' :: ' ' :: ("TYPE".toList ++ ' ' :: (name.toList ++ ' ' :: kind.text.toList))

def lineText : Line V → List Char
  | .type name kind => typeText name kind
  | .sample sample => sampleText T sample

def familyLines (family : Family V) : List (Line V) :=
  .type family.name family.kind :: family.samples.map .sample

def render (families : List (Family V)) : List Char :=
  (families.flatMap familyLines).flatMap (lineText T · ++ ['\n'])

@[simp] theorem render_nil : render T [] = [] := rfl

theorem render_append (families later : List (Family V)) :
    render T (families ++ later) = render T families ++ render T later := by
  simp [render]

end Text

section Characters

theorem takeWhile_stop {α : Type} {p : α → Bool} {l : List α} (h : ∀ a ∈ l, p a = true) {a : α}
    (ha : p a = false) (rest : List α) : (l ++ a :: rest).takeWhile p = l := by
  rw [List.takeWhile_append_of_pos h, List.takeWhile_cons_of_neg (by simp [ha]), List.append_nil]

theorem dropWhile_stop {α : Type} {p : α → Bool} {l : List α} (h : ∀ a ∈ l, p a = true) {a : α}
    (ha : p a = false) (rest : List α) : (l ++ a :: rest).dropWhile p = a :: rest := by
  rw [List.dropWhile_append_of_pos h, List.dropWhile_cons_of_neg (by simp [ha])]

theorem ne_of_class {p : Char → Bool} {c d : Char} (hc : p c = true) (hd : p d = false) :
    c ≠ d := by
  rintro rfl
  rw [hc] at hd
  cases hd

theorem not_mem_of_class {p : Char → Bool} {l : List Char} {d : Char} (h : ∀ c ∈ l, p c = true)
    (hd : p d = false) : d ∉ l := by
  intro hmem
  exact ne_of_class (h d hmem) hd rfl

theorem isBlank_eq_false_of_class {p : Char → Bool} {c : Char} (hc : p c = true)
    (hspace : p ' ' = false) (htab : p '\t' = false) : isBlank c = false := by
  simp [isBlank, ne_of_class hc hspace, ne_of_class hc htab]

theorem isMetricName_all {name : List Char} (h : isMetricName name = true) :
    ∀ c ∈ name, isMetricChar c = true := by
  cases name with
  | nil => cases h
  | cons first rest =>
    simp only [isMetricName, Bool.and_eq_true, List.all_eq_true] at h
    exact h.2

theorem isLabelName_all {name : List Char} (h : isLabelName name = true) :
    ∀ c ∈ name, isLabelChar c = true := by
  cases name with
  | nil => cases h
  | cons first rest =>
    simp only [isLabelName, Bool.and_eq_true, List.all_eq_true] at h
    exact h.2

theorem isNumberText_all {word : List Char} (h : isNumberText word = true) :
    word ≠ [] ∧ ∀ c ∈ word, isNumberChar c = true := by
  simp only [isNumberText, Bool.and_eq_true, Bool.not_eq_true', List.isEmpty_eq_false_iff,
    List.all_eq_true] at h
  exact h

theorem NumberText.isNumberText_toText {V : Type} (T : NumberText V) (v : V) :
    isNumberText (T.toText v).toList = true := by
  have hparse := T.parse_toText v
  by_contra hnot
  rw [parseNumber, if_neg hnot] at hparse
  cases hparse

theorem NumberText.not_mem_toText {V : Type} (T : NumberText V) (v : V) {d : Char}
    (hd : isNumberChar d = false) : d ∉ (T.toText v).toList :=
  not_mem_of_class (isNumberText_all (T.isNumberText_toText v)).2 hd

end Characters

section Words

theorem skipBlanks_cons {c : Char} (h : isBlank c = false) (rest : List Char) :
    skipBlanks (c :: rest) = c :: rest :=
  List.dropWhile_cons_of_neg (by simp [h])

theorem words_blank (rest : List Char) : words (' ' :: rest) = words rest := by
  have hsplit : ([] ++ ' ' :: rest).splitOnP isBlank = [] :: rest.splitOnP isBlank :=
    List.splitOnP_append_cons_of_forall_mem (by simp) ' ' (by decide) rest
  rw [List.nil_append] at hsplit
  simp [words, hsplit]

theorem words_cons {word : List Char} (hne : word ≠ []) (h : ∀ c ∈ word, isBlank c = false)
    (rest : List Char) : words (word ++ ' ' :: rest) = word :: words rest := by
  rw [words, List.splitOnP_append_cons_of_forall_mem h ' ' (by decide) rest,
    List.filter_cons_of_pos (by simpa using hne)]
  rfl

theorem words_singleton {word : List Char} (hne : word ≠ []) (h : ∀ c ∈ word, isBlank c = false) :
    words word = [word] := by
  rw [words, List.splitOnP_eq_singleton h, List.filter_cons_of_pos (by simpa using hne)]
  rfl

end Words

section Labels

theorem unescape_escape (value rest : List Char) :
    unescape (value.flatMap escapeChar ++ '"' :: rest) = some (value, rest) := by
  induction value with
  | nil => simp [unescape]
  | cons c value ih =>
    rw [List.flatMap_cons, List.append_assoc]
    by_cases hslash : c = '\\'
    · subst hslash
      simp [escapeChar, unescape, ih]
    · by_cases hquote : c = '"'
      · subst hquote
        simp [escapeChar, unescape, ih]
      · by_cases hline : c = '\n'
        · subst hline
          simp [escapeChar, unescape, ih]
        · simp [escapeChar, hslash, hquote, hline, unescape, ih]

theorem newline_not_mem_escape (value : List Char) : '\n' ∉ value.flatMap escapeChar := by
  intro hmem
  obtain ⟨c, -, hc⟩ := List.mem_flatMap.mp hmem
  simp only [escapeChar] at hc
  split_ifs at hc with hslash hquote hline
  · simp at hc
  · simp at hc
  · simp at hc
  · exact hline (List.mem_singleton.mp hc).symm

theorem parseLabel_labelText {label : String × String} (h : isLabelName label.1.toList = true)
    (rest : List Char) : parseLabel (labelText label ++ rest) = some (label, rest) := by
  have hall := isLabelName_all h
  have htext : labelText label ++ rest = label.1.toList ++
      '=' :: '"' :: (label.2.toList.flatMap escapeChar ++ '"' :: rest) := by
    simp [labelText]
  rw [htext, parseLabel, takeWhile_stop hall (by decide), dropWhile_stop hall (by decide), if_pos h]
  simp only [skipBlanks_cons (c := '=') (by decide), skipBlanks_cons (c := '"') (by decide),
    unescape_escape, Option.map_some, String.ofList_toList]

theorem labelText_eq_cons {label : String × String} (h : isLabelName label.1.toList = true) :
    ∃ first rest, labelText label = first :: rest ∧ isLabelChar first = true := by
  cases hname : label.1.toList with
  | nil =>
    rw [hname] at h
    cases h
  | cons first name =>
    have hfirst := isLabelName_all h first (by simp [hname])
    exact ⟨first, _, by rw [labelText, hname, List.cons_append], hfirst⟩

theorem parseLabels_labelText {label : String × String} (h : isLabelName label.1.toList = true)
    (fuel : ℕ) (rest : List Char) :
    parseLabels (fuel + 1) (labelText label ++ rest) =
      match skipBlanks rest with
      | ',' :: rest => (parseLabels fuel rest).map fun (labels, later) => (label :: labels, later)
      | '}' :: rest => some ([label], rest)
      | _ => none := by
  obtain ⟨first, later, htext, hfirst⟩ := labelText_eq_cons h
  have hblank := isBlank_eq_false_of_class hfirst (by decide) (by decide)
  have hbrace : first ≠ '}' := ne_of_class hfirst (by decide)
  have hskip : skipBlanks (labelText label ++ rest) = labelText label ++ rest := by
    rw [htext, List.cons_append, skipBlanks_cons hblank]
  rw [parseLabels, hskip]
  split
  · next after hclose =>
    rw [htext, List.cons_append] at hclose
    exact absurd (List.cons.inj hclose).1 hbrace
  · rw [parseLabel_labelText h rest]
    rfl

theorem parseLabels_text {labels : List (String × String)} :
    ∀ {label : String × String} {fuel : ℕ},
      (∀ l ∈ label :: labels, isLabelName l.1.toList = true) → labels.length < fuel →
      ∀ rest, parseLabels fuel
        (labelText label ++ (labels.flatMap (',' :: labelText ·) ++ '}' :: rest)) =
          some (label :: labels, rest) := by
  induction labels with
  | nil =>
    intro label fuel h hfuel rest
    obtain ⟨fuel, rfl⟩ : ∃ n, fuel = n + 1 := ⟨fuel - 1, by omega⟩
    rw [parseLabels_labelText (h label List.mem_cons_self), List.flatMap_nil, List.nil_append,
      skipBlanks_cons (by decide)]
    rfl
  | cons next labels ih =>
    intro label fuel h hfuel rest
    rw [List.length_cons] at hfuel
    obtain ⟨fuel, rfl⟩ : ∃ n, fuel = n + 1 := ⟨fuel - 1, by omega⟩
    have hlater := ih (fun l hl => h l (List.mem_cons_of_mem _ hl))
      (by omega : labels.length < fuel) rest
    rw [parseLabels_labelText (h label List.mem_cons_self), List.flatMap_cons, List.cons_append,
      List.cons_append, List.append_assoc, skipBlanks_cons (by decide)]
    simp only [hlater, Option.map_some]

theorem length_le_flatMap (labels : List (String × String)) :
    labels.length ≤ (labels.flatMap (',' :: labelText ·)).length := by
  induction labels with
  | nil => simp
  | cons label labels ih =>
    simp only [List.flatMap_cons, List.length_append, List.length_cons]
    omega

theorem parseLabelSet_text {labels : List (String × String)}
    (h : ∀ label ∈ labels, isLabelName label.1.toList = true) (hset : isLabelSet labels = true)
    {value : List Char} (hvalue : isNumberText value = true) :
    ∃ rest, parseLabelSet (labelSetText labels ++ ' ' :: value) = some (labels, rest) ∧
      words rest = words value := by
  cases labels with
  | nil =>
    obtain ⟨hne, hall⟩ := isNumberText_all hvalue
    obtain ⟨first, later, rfl⟩ := List.exists_cons_of_ne_nil hne
    have hfirst := hall first List.mem_cons_self
    have hblank := isBlank_eq_false_of_class hfirst (by decide) (by decide)
    have hskip : skipBlanks (' ' :: first :: later) = first :: later := by
      rw [skipBlanks, List.dropWhile_cons_of_pos (by decide),
        List.dropWhile_cons_of_neg (by simp [hblank])]
    refine ⟨first :: later, ?_, rfl⟩
    rw [labelSetText, List.nil_append, parseLabelSet, hskip]
    split
    · next rest hopen => exact absurd (List.cons.inj hopen).1 (ne_of_class hfirst (by decide))
    · rfl
  | cons label labels =>
    refine ⟨' ' :: value, ?_, words_blank value⟩
    have hlength := length_le_flatMap labels
    have hfuel : labels.length < (labelText label ++
        (labels.flatMap (',' :: labelText ·) ++ '}' :: ' ' :: value)).length := by
      simp only [List.length_append, List.length_cons]
      omega
    have hparse := parseLabels_text h hfuel (' ' :: value)
    have htext : labelSetText (label :: labels) ++ ' ' :: value = '{' :: (labelText label ++
        (labels.flatMap (',' :: labelText ·) ++ '}' :: ' ' :: value)) := by
      simp [labelSetText]
    rw [htext, parseLabelSet, skipBlanks_cons (by decide)]
    simp only [hparse, Option.filter_some, hset, if_true]

end Labels

end Exposition
