import Iperf3Rs.ExpositionRoundTrip
import Iperf3Rs.PrometheusRender
import Mathlib.Data.List.Nodup

/-! Encoded snapshots as the text exposition parser reads them: one gauge family for each field
that is present, whatever the label values contain. -/

namespace Iperf3Rs

open Exposition

section Escape

theorem pushEscapedLabelValue_toList (out value : String) :
    (pushEscapedLabelValue out value).toList = out.toList ++ value.toList.flatMap escapeChar := by
  rw [pushEscapedLabelValue]
  induction value.toList generalizing out with
  | nil => simp
  | cons c rest ih =>
    rw [List.foldl_cons, ih, List.flatMap_cons, ← List.append_assoc]
    congr 1
    by_cases hslash : c = '\\'
    · subst hslash
      simp [escapeChar]
    · by_cases hquote : c = '"'
      · subst hquote
        simp [escapeChar]
      · by_cases hline : c = '\n'
        · subst hline
          simp [escapeChar]
        · simp [escapeChar, hslash, hquote, hline]

theorem pushLabel_toList (out : String) (label : String × String) (index : ℕ) :
    (pushLabel out (label, index)).toList =
      out.toList ++ (if 0 < index then [','] else []) ++ labelText label := by
  obtain ⟨name, value⟩ := label
  by_cases hindex : 0 < index
  · simp [pushLabel, hindex, pushEscapedLabelValue_toList, labelText]
  · simp [pushLabel, hindex, pushEscapedLabelValue_toList, labelText]

theorem pushLabels_toList (labels : List (String × String)) (out : String) {index : ℕ}
    (hindex : 0 < index) :
    ((labels.zipIdx index).foldl pushLabel out).toList =
      out.toList ++ labels.flatMap (',' :: labelText ·) := by
  induction labels generalizing out index with
  | nil => simp
  | cons label labels ih =>
    rw [List.zipIdx_cons, List.foldl_cons, ih _ (by omega), pushLabel_toList, if_pos hindex]
    simp

theorem labelSet_toList (labels : List (String × String)) :
    (labelSet labels).toList = labelSetText labels := by
  cases labels with
  | nil => rfl
  | cons label labels =>
    have hlater := pushLabels_toList labels (pushLabel "\x7b" (label, 0)) (by omega : 0 < 0 + 1)
    simp only [labelSet, List.isEmpty_cons, Bool.false_eq_true, if_false, List.zipIdx_cons,
      List.foldl_cons, String.toList_push, hlater, pushLabel_toList]
    simp [labelSetText]

end Escape

section Families

variable {F : Type} (metricPrefix : String) (labels : List (String × String))

def gaugeFamily (suffix : String) (value : F) : Family F :=
  let name := metricName metricPrefix suffix
  ⟨name, .gauge, [⟨name, labels, value⟩]⟩

def gaugeFamilies (fields : List (Field F)) : List (Family F) :=
  fields.filterMap fun (suffix, value) => value.map (gaugeFamily metricPrefix labels suffix)

variable (T : NumberText F)

theorem gauge_toList (out suffix : String) (value : F) :
    (gauge T.toText out (metricName metricPrefix suffix) value (labelSet labels)).toList =
      out.toList ++ render T [gaugeFamily metricPrefix labels suffix value] := by
  simp [gauge, labelSet_toList, render, familyLines, gaugeFamily, lineText, typeText, sampleText,
    Kind.text]

theorem pushFields_toList (fields : List (Field F)) (out : String) :
    (fields.foldl (pushField T.toText metricPrefix labels) out).toList =
      out.toList ++ render T (gaugeFamilies metricPrefix labels fields) := by
  induction fields generalizing out with
  | nil => simp [gaugeFamilies]
  | cons field fields ih =>
    obtain ⟨suffix, value⟩ := field
    rw [List.foldl_cons, ih]
    cases value with
    | none => rfl
    | some value =>
      have hcons : gaugeFamilies metricPrefix labels ((suffix, some value) :: fields) =
          [gaugeFamily metricPrefix labels suffix value] ++
            gaugeFamilies metricPrefix labels fields := rfl
      rw [hcons, render_append, ← List.append_assoc, ← gauge_toList]
      rfl

theorem metricName_injective : Function.Injective (metricName metricPrefix) := by
  intro left right h
  simp only [metricName] at h
  have hlist := congrArg String.toList h
  simp only [String.toList_append] at hlist
  exact String.toList_inj.mp (List.append_cancel_left hlist)

theorem gaugeFamilies_names (fields : List (Field F)) :
    (gaugeFamilies metricPrefix labels fields).map Family.name =
      (fields.filter (·.2.isSome)).map (metricName metricPrefix ·.1) := by
  induction fields with
  | nil => rfl
  | cons field fields ih =>
    obtain ⟨suffix, value⟩ := field
    cases value with
    | none => exact ih
    | some value => exact congrArg (metricName metricPrefix suffix :: ·) ih

end Families

section Legal

theorem isDigit_eq_false_of_start {c : Char} (h : isIdentifierStart c = true) :
    c.isDigit = false := by
  rw [isIdentifierStart_iff] at h
  by_contra hdigit
  have hrange : 48 ≤ c.toNat ∧ c.toNat ≤ 57 :=
    Char.isDigit_iff_toNat.mp ((Bool.not_eq_false _).mp hdigit)
  omega

theorem isLabelName_of_identifier {name : String} (h : isIdentifier name = true) :
    isLabelName name.toList = true := by
  obtain ⟨first, rest, hname, hfirst, -⟩ := isIdentifier_eq_true.mp h
  have hall := isIdentifier_rest h
  rw [hname] at hall ⊢
  simp only [isLabelName, isDigit_eq_false_of_start hfirst, Bool.not_false, Bool.true_and,
    List.all_eq_true]
  exact hall

theorem isMetricName_append {metricPrefix suffix : String} (h : isIdentifier metricPrefix = true)
    (hsuffix : ∀ c ∈ suffix.toList, isMetricChar c = true) :
    isMetricName (metricName metricPrefix suffix).toList = true := by
  obtain ⟨first, rest, hname, hfirst, -⟩ := isIdentifier_eq_true.mp h
  have hall := isIdentifier_rest h
  have htext : (metricName metricPrefix suffix).toList =
      metricPrefix.toList ++ '_' :: suffix.toList := by
    change (metricPrefix ++ "_" ++ suffix).toList = _
    simp
  rw [hname] at hall htext
  rw [htext]
  simp only [List.cons_append, isMetricName, isDigit_eq_false_of_start hfirst, Bool.not_false,
    Bool.true_and, List.all_eq_true]
  intro c hc
  rw [← List.cons_append] at hc
  rcases List.mem_append.mp hc with hc | hc
  · exact Bool.or_eq_true_iff.mpr (.inl (hall c hc))
  · rcases List.mem_cons.mp hc with rfl | hc
    · decide
    · exact hsuffix c hc

/-- The whole numbers among the values of `f64`. -/
local instance : F64 ℕ where
  zero := Nat.zero
  one := 1
  add := Nat.add
  mul := Nat.mul
  div := Nat.div
  min left right := if left ≤ right then left else right
  max left right := if left ≤ right then right else left
  natCast n := n
  isFinite _ := true
  lt := Nat.blt

def LegalNames (names : List String) : Prop :=
  names.Nodup ∧ ∀ name ∈ names, name.toList.all isMetricChar = true

instance (names : List String) : Decidable (LegalNames names) :=
  inferInstanceAs (Decidable (_ ∧ _))

variable {F : Type} [F64 F]

theorem intervalNames_legal (metrics : Metrics F) :
    LegalNames ((intervalFields metrics).map Prod.fst) := by
  have hnames : (intervalFields metrics).map Prod.fst =
      (intervalFields (Metrics.default : Metrics ℕ)).map Prod.fst := rfl
  rw [hnames]
  decide +kernel

theorem windowNames_legal (metrics : WindowMetrics F) :
    LegalNames ((windowFields metrics).map Prod.fst) := by
  have hnames : (windowFields metrics).map Prod.fst =
      (aggregateWindow [(Metrics.default : Metrics ℕ)]).elim []
        fun window => (windowFields window).map Prod.fst := rfl
  rw [hnames]
  decide +kernel

end Legal

section Snapshot

variable {F : Type} (T : NumberText F) (metricPrefix : String) (labels : List (String × String))

/-- The text of a snapshot is parsed to one gauge family for each present field. -/
structure Snapshot (fields : List (Field F)) (text : String) : Prop where
  parsed : parse T.ofText text.toList = some (gaugeFamilies metricPrefix labels fields)
  legal : ∀ family ∈ gaugeFamilies metricPrefix labels fields,
    isMetricName family.name.toList = true
  nodup : ((gaugeFamilies metricPrefix labels fields).map Family.name).Nodup
  present : ∀ field ∈ fields, metricName metricPrefix field.1 ∈
    (gaugeFamilies metricPrefix labels fields).map Family.name ↔ field.2.isSome = true

variable {metricPrefix labels}

theorem mem_gaugeFamilies {fields : List (Field F)} {family : Family F}
    (h : family ∈ gaugeFamilies metricPrefix labels fields) :
    ∃ field ∈ fields, ∃ value, family = gaugeFamily metricPrefix labels field.1 value := by
  obtain ⟨⟨suffix, value⟩, hmem, hfamily⟩ := List.mem_filterMap.mp h
  obtain ⟨value, -, rfl⟩ := Option.map_eq_some_iff.mp hfamily
  exact ⟨_, hmem, value, rfl⟩

theorem names_nodup {fields : List (Field F)} (h : (fields.map Prod.fst).Nodup) :
    ((gaugeFamilies metricPrefix labels fields).map Family.name).Nodup := by
  have hsub : ((fields.filter (·.2.isSome)).map Prod.fst).Nodup :=
    h.sublist (List.filter_sublist.map Prod.fst)
  have hnames := hsub.map (metricName_injective metricPrefix)
  rwa [List.map_map, Function.comp_def, ← gaugeFamilies_names metricPrefix labels] at hnames

theorem present_iff {fields : List (Field F)} (h : (fields.map Prod.fst).Nodup) {field : Field F}
    (hfield : field ∈ fields) : metricName metricPrefix field.1 ∈
      (gaugeFamilies metricPrefix labels fields).map Family.name ↔ field.2.isSome = true := by
  rw [gaugeFamilies_names]
  constructor
  · intro hmem
    obtain ⟨other, hother, hname⟩ := List.mem_map.mp hmem
    obtain ⟨hin, hsome⟩ := List.mem_filter.mp hother
    have hsame := metricName_injective metricPrefix hname
    rw [← List.inj_on_of_nodup_map h hin hfield hsame]
    exact hsome
  · intro hsome
    exact List.mem_map.mpr ⟨field, List.mem_filter.mpr ⟨hfield, hsome⟩, rfl⟩

theorem isLabelSet_of_valid {labels : List (String × String)}
    (h : PrometheusEncoder.validateLabels labels = .ok ()) : isLabelSet labels = true := by
  obtain ⟨hlabels, hnodup⟩ := PrometheusEncoder.validateLabels_eq_ok.mp h
  have hreserved : (labels.map Prod.fst).contains "__name__" = false := by
    rw [List.contains_eq_mem, decide_eq_false_iff_not]
    intro hmem
    obtain ⟨label, hlabel, hname⟩ := List.mem_map.mp hmem
    exact (hlabels label hlabel).2.1 hname
  simp only [isLabelSet, hnodup, hreserved, decide_true, Bool.not_false, Bool.and_self]

theorem snapshot_of_fields (hpre : isIdentifier metricPrefix = true)
    (hlabels : PrometheusEncoder.validateLabels labels = .ok ()) {fields : List (Field F)}
    (hnames : LegalNames (fields.map Prod.fst)) :
    Snapshot T metricPrefix labels fields
      (fields.foldl (pushField T.toText metricPrefix labels) "") := by
  have hvalid := (PrometheusEncoder.validateLabels_eq_ok.mp hlabels).1
  have hlegal : ∀ field ∈ fields, isMetricName (metricName metricPrefix field.1).toList = true := by
    intro field hfield
    have hchars := hnames.2 field.1 (List.mem_map.mpr ⟨field, hfield, rfl⟩)
    exact isMetricName_append hpre (List.all_eq_true.mp hchars)
  have hwell : ∀ family ∈ gaugeFamilies metricPrefix labels fields, family.WellFormed := by
    intro family hmem
    obtain ⟨field, hfield, value, rfl⟩ := mem_gaugeFamilies hmem
    have hname := hlegal field hfield
    refine ⟨hname, fun sample hsample => ?_, fun sample hsample => ?_⟩
    · rw [List.mem_singleton.mp hsample]
      simp [gaugeFamily, Kind.owns, Kind.suffixes]
    · rw [List.mem_singleton.mp hsample]
      exact ⟨hname, fun label hlabel => isLabelName_of_identifier (hvalid label hlabel).1,
        isLabelSet_of_valid hlabels⟩
  have hnodup : ((gaugeFamilies metricPrefix labels fields).map Family.name).Nodup :=
    names_nodup hnames.1
  refine ⟨?_, fun family hmem => (hwell family hmem).name, hnodup,
    fun field hfield => present_iff hnames.1 hfield⟩
  rw [pushFields_toList, String.toList_empty, List.nil_append]
  exact parse_render T hwell hnodup

variable [F64 F]

theorem encode_parsed {encoder : PrometheusEncoder}
    (h : PrometheusEncoder.withLabels metricPrefix labels = .ok encoder) :
    (∀ metrics : Metrics F, Snapshot T metricPrefix labels (intervalFields metrics)
      (encoder.encodeInterval T.toText metrics)) ∧
    ∀ metrics : WindowMetrics F, Snapshot T metricPrefix labels (windowFields metrics)
      (encoder.encodeWindow T.toText metrics) := by
  obtain ⟨hpre, hlabels⟩ := PrometheusEncoder.withLabels_eq_ok.mp ⟨encoder, h⟩
  have hidentifier : isIdentifier metricPrefix = true := by
    by_contra hnot
    rw [validateMetricPrefix, isValidMetricPrefix, if_neg hnot] at hpre
    cases hpre
  have hencoder : encoder = ⟨metricPrefix, labels⟩ := by
    rw [PrometheusEncoder.withLabels, hpre, hlabels] at h
    exact (Except.ok.inj h).symm
  subst hencoder
  constructor
  · intro metrics
    rw [PrometheusEncoder.encodeInterval, renderInterval_eq]
    exact snapshot_of_fields T hidentifier hlabels (intervalNames_legal metrics)
  · intro metrics
    rw [PrometheusEncoder.encodeWindow, renderWindow_eq]
    exact snapshot_of_fields T hidentifier hlabels (windowNames_legal metrics)

def decimalText : NumberText ℕ where
  toText n := toString n
  ofText s := if s.toList.all Char.isDigit then some (Text.decimal s.toList) else none
  parse_toText n := by
    have hdigits := Text.isDigit_toString n
    have hne := Text.toString_ne_nil n
    have hword : isNumberText (toString n).toList = true := by
      simp only [isNumberText, Bool.and_eq_true, Bool.not_eq_true', List.isEmpty_eq_false_iff,
        List.all_eq_true]
      refine ⟨hne, fun c hc => ?_⟩
      simp [isNumberChar, Char.isAlphanum, hdigits c hc]
    rw [parseNumber, if_pos hword, String.toList_ofList, if_pos (List.all_eq_true.mpr hdigits),
      Text.decimal_toString]

attribute [local instance] instF64Nat

theorem encode_parsed_escaped : ∃ encoder,
    PrometheusEncoder.withLabels "nettest" [("site", "ci"), ("case", "a\"b\\c\n,\x7d")] =
      .ok encoder ∧
    parse decimalText.ofText
      (encoder.encodeInterval decimalText.toText { Metrics.default with streamCount := 3 }).toList =
      some [gaugeFamily "nettest" [("site", "ci"), ("case", "a\"b\\c\n,\x7d")] "transferred_bytes" 0,
        gaugeFamily "nettest" [("site", "ci"), ("case", "a\"b\\c\n,\x7d")]
          "bandwidth_bits_per_second" 0,
        gaugeFamily "nettest" [("site", "ci"), ("case", "a\"b\\c\n,\x7d")] "stream_count" 3,
        gaugeFamily "nettest" [("site", "ci"), ("case", "a\"b\\c\n,\x7d")] "omitted_intervals" 0] :=
  ⟨_, rfl, ((encode_parsed decimalText rfl).1 _).parsed⟩

end Snapshot

end Iperf3Rs
