import Iperf3Rs.CliSinks

/-! Labels in an environment variable. Their text is a list with commas between the labels, and
joining two texts joins the lists. -/

namespace Iperf3Rs

def labelText (label : String × String) : String := label.1 ++ "=" ++ label.2

def serializeLabels (labels : List (String × String)) : String :=
  ",".intercalate (labels.map labelText)

/-- A label whose text can stand between commas. -/
structure Listable (reserveJob : Bool) (label : String × String) : Prop where
  name : PushGatewayConfig.isValidLabelName label.1 = true
  unreserved : reserveJob = true → PushGatewayConfig.isReservedLabelName label.1 = false
  value : label.2 ≠ ""
  comma : ',' ∉ label.2.toList
  ending : ∀ c ∈ label.2.toList.getLast?, Text.isWhitespace c = false

def Padded (text raw : String) : Prop :=
  ∃ before after, Text.IsBlank before ∧ Text.IsBlank after ∧ raw = before ++ text ++ after

/-- The reader of one piece between commas. -/
def parseEnvLabel (option : String) (reserveJob : Bool) (piece : List Char) :
    Except String (String × String) :=
  Args.parseLabel option (Text.trim (.ofList piece)) reserveJob

section Labels

variable {option : String} {reserveJob : Bool}

theorem parseEnvLabels_blank {raw : String} (h : Text.IsBlank raw) :
    Args.parseEnvLabels option raw reserveJob = .ok [] := by
  rw [Args.parseEnvLabels, if_pos (Text.trim_eq_empty.mpr h)]

theorem parseEnvLabels_eq {raw : String} (h : ¬ Text.IsBlank raw) :
    Args.parseEnvLabels option raw reserveJob =
      SeparatedItems.parse ',' (parseEnvLabel option reserveJob) raw.toList := by
  have hitem : (fun label => Args.parseLabel option label reserveJob) ∘ Text.trim ∘ String.ofList =
      parseEnvLabel option reserveJob := by
    funext piece
    simp only [Function.comp_apply, parseEnvLabel]
  rw [Args.parseEnvLabels, if_neg fun hblank => h (Text.trim_eq_empty.mp hblank), Text.split,
    List.map_map, List.mapM_map, SeparatedItems.parse, hitem]

theorem isWhitespace_of_isIdentifierRest {c : Char} (h : isIdentifierRest c = true) :
    Text.isWhitespace c = false := by
  rw [isIdentifierRest_iff, isIdentifierStart_iff] at h
  simp only [Text.isWhitespace, Bool.or_eq_false_iff, Bool.and_eq_false_iff,
    beq_eq_false_iff_ne, decide_eq_false_iff_not]
  omega

theorem labelText_toList (label : String × String) :
    (labelText label).toList = label.1.toList ++ '=' :: label.2.toList := by
  rw [labelText, String.toList_append, String.toList_append, List.append_assoc]
  rfl

theorem equals_mem_labelText (label : String × String) : '=' ∈ (labelText label).toList := by
  rw [labelText_toList]
  exact List.mem_append_right _ List.mem_cons_self

theorem splitOnce_labelText {label : String × String} (h : isIdentifier label.1 = true) :
    Text.splitOnce '=' (labelText label) = some label := by
  have htext : labelText label = label.1 ++ .ofList ('=' :: label.2.toList) := by
    rw [← String.toList_inj, labelText_toList, String.toList_append, String.toList_ofList]
  rw [htext]
  exact Text.splitOnce_append (not_mem_of_isIdentifier h rfl) label.2

theorem Listable.trimmed {label : String × String} (h : Listable reserveJob label) :
    Text.Trimmed (labelText label).toList := by
  rw [labelText_toList]
  constructor
  · intro c hc
    obtain ⟨first, rest, hname, hfirst, -⟩ := isIdentifier_eq_true.mp h.name
    rw [hname] at hc
    cases hc
    exact isWhitespace_of_isIdentifierRest (isIdentifierRest_of_start hfirst)
  · intro c hc
    have hvalue : label.2.toList ≠ [] := fun hnil => h.value (String.toList_eq_nil_iff.mp hnil)
    obtain ⟨last, hlast⟩ := Option.isSome_iff_exists.mp (List.getLast?_isSome.mpr hvalue)
    rw [List.getLast?_append, List.getLast?_cons, hlast] at hc
    cases hc
    exact h.ending last hlast

theorem Listable.comma_not_mem {label : String × String} (h : Listable reserveJob label)
    {raw : String} (hraw : Padded (labelText label) raw) : ',' ∉ raw.toList := by
  obtain ⟨before, after, hbefore, hafter, rfl⟩ := hraw
  rw [String.toList_append, String.toList_append, labelText_toList]
  intro hmem
  rcases List.mem_append.mp hmem with hmem | hmem
  · rcases List.mem_append.mp hmem with hmem | hmem
    · cases hbefore _ hmem
    · rcases List.mem_append.mp hmem with hmem | hmem
      · exact not_mem_of_isIdentifier h.name rfl hmem
      · rcases List.mem_cons.mp hmem with heq | hmem
        · cases heq
        · exact h.comma hmem
  · cases hafter _ hmem

theorem Listable.parseEnvLabel {label : String × String} (h : Listable reserveJob label)
    {raw : String} (hraw : Padded (labelText label) raw) :
    parseEnvLabel option reserveJob raw.toList = .ok label := by
  obtain ⟨before, after, hbefore, hafter, rfl⟩ := hraw
  rw [Iperf3Rs.parseEnvLabel, String.ofList_toList, Text.trim_padded hbefore hafter h.trimmed]
  exact parseLabel_eq_ok.mpr ⟨splitOnce_labelText h.name, h.name, h.unreserved, h.value⟩

/-- What the reader accepts can be written again. -/
theorem listable_of_parseEnvLabel {piece : List Char} (hcomma : ',' ∉ piece)
    {label : String × String} (h : Iperf3Rs.parseEnvLabel option reserveJob piece = .ok label) :
    Listable reserveJob label := by
  obtain ⟨hsplit, hname, hreserved, hvalue⟩ := parseLabel_eq_ok.mp h
  have htext := congrArg String.toList (Text.splitOnce_eq_some hsplit)
  rw [String.toList_append, String.toList_ofList] at htext
  have htrimmed := Text.trimmed_trimChars (String.ofList piece).toList
  have htoList : (Text.trim (.ofList piece)).toList =
      Text.trimChars (String.ofList piece).toList := String.toList_ofList
  rw [← htoList, htext] at htrimmed
  refine ⟨hname, hreserved, hvalue, fun hmem => ?_, fun c hc => ?_⟩
  · have hpiece : ',' ∈ (Text.trim (.ofList piece)).toList := by
      rw [htext]
      exact List.mem_append_right _ (List.mem_cons_of_mem _ hmem)
    have hmem := Text.mem_of_mem_trim hpiece
    rw [String.toList_ofList] at hmem
    exact hcomma hmem
  · apply htrimmed.back
    rw [List.getLast?_append, List.getLast?_cons, Option.mem_def.mp hc]
    rfl

theorem parseEnvLabels_padded {labels : List (String × String)} {raws : List String}
    (hlabels : ∀ label ∈ labels, Listable reserveJob label)
    (hraws : List.Forall₂ (fun label raw => Padded (labelText label) raw) labels raws) :
    Args.parseEnvLabels option (",".intercalate raws) reserveJob = .ok labels := by
  have hboth := (List.forall₂_and_left labels raws).mpr ⟨hlabels, hraws⟩
  have htext : (",".intercalate raws).toList = [','].intercalate (raws.map String.toList) := by
    rw [String.toList_intercalate]
    rfl
  rcases raws with _ | ⟨raw, raws⟩
  · cases hraws
    exact parseEnvLabels_blank fun c hc => by cases hc
  · have hblank : ¬ Text.IsBlank (",".intercalate (raw :: raws)) := by
      intro hblank
      obtain ⟨label, -, before, after, -, -, rfl⟩ := exists_of_forall₂ hraws List.mem_cons_self
      have hequals : '=' ∈ (before ++ labelText label ++ after).toList := by
        rw [String.toList_append, String.toList_append]
        exact List.mem_append_left _ (List.mem_append_right _ (equals_mem_labelText label))
      have hwhite := hblank '=' (by
        rw [htext, List.map_cons, SeparatedItems.intercalate_cons]
        exact List.mem_append_left _ hequals)
      cases hwhite
    have hcommas : ∀ piece ∈ (raw :: raws).map String.toList, ',' ∉ piece := by
      intro piece hpiece
      obtain ⟨raw', hmem, rfl⟩ := List.mem_map.mp hpiece
      obtain ⟨label, -, hlabel, hraw⟩ := exists_of_forall₂ hboth hmem
      exact hlabel.comma_not_mem hraw
    rw [parseEnvLabels_eq hblank, htext, SeparatedItems.parse_intercalate (by simp) hcommas,
      List.forall₂_map_left_iff]
    exact (hboth.imp fun _ _ h => h.1.parseEnvLabel h.2).flip

theorem parseEnvLabels_serialize {labels : List (String × String)}
    (h : ∀ label ∈ labels, Listable reserveJob label) :
    Args.parseEnvLabels option (serializeLabels labels) reserveJob = .ok labels := by
  refine parseEnvLabels_padded h ?_
  rw [List.forall₂_map_right_iff, List.forall₂_same]
  intro label _
  have hblank : Text.IsBlank "" := fun _ hc => by cases hc
  exact ⟨"", "", hblank, hblank, by rw [String.empty_append, String.append_empty]⟩

theorem listable_of_parseEnvLabels {raw : String} {labels : List (String × String)}
    (h : Args.parseEnvLabels option raw reserveJob = .ok labels) :
    ∀ label ∈ labels, Listable reserveJob label := by
  by_cases hblank : Text.IsBlank raw
  · rw [parseEnvLabels_blank hblank] at h
    cases h
    exact fun _ hmem => by cases hmem
  · rw [parseEnvLabels_eq hblank, SeparatedItems.parse, SeparatedItems.mapM_eq_ok] at h
    intro label hmem
    obtain ⟨piece, hpiece, hlabel⟩ := exists_of_forall₂ h hmem
    exact listable_of_parseEnvLabel (SeparatedItems.separator_not_mem hpiece) hlabel

theorem parseEnvLabels_append {left right : String} (hleft : ¬ Text.IsBlank left)
    (hright : ¬ Text.IsBlank right) {labels : List (String × String)} :
    Args.parseEnvLabels option (left ++ "," ++ right) reserveJob = .ok labels ↔
      ∃ xs ys, Args.parseEnvLabels option left reserveJob = .ok xs ∧
        Args.parseEnvLabels option right reserveJob = .ok ys ∧ labels = xs ++ ys := by
  have htext : (left ++ "," ++ right).toList = left.toList ++ ',' :: right.toList := by
    rw [String.toList_append, String.toList_append, List.append_assoc]
    rfl
  have hblank : ¬ Text.IsBlank (left ++ "," ++ right) := by
    intro hblank
    refine hleft fun c hc => hblank c ?_
    rw [htext]
    exact List.mem_append_left _ hc
  rw [parseEnvLabels_eq hblank, parseEnvLabels_eq hleft, parseEnvLabels_eq hright, htext,
    SeparatedItems.parse_append]

end Labels

/-- Lists of labels are written and read with commas, whatever whitespace is around these, and what
is read from two texts is what is read from the one they make up. -/
theorem env_labels (option : String) (reserveJob : Bool) :
    (∀ labels, (∀ label ∈ labels, Listable reserveJob label) →
      Args.parseEnvLabels option (serializeLabels labels) reserveJob = .ok labels ∧
      ∀ raws, List.Forall₂ (fun label raw => Padded (labelText label) raw) labels raws →
        Args.parseEnvLabels option (",".intercalate raws) reserveJob = .ok labels) ∧
    (∀ left right, ¬ Text.IsBlank left → ¬ Text.IsBlank right → ∀ labels,
      Args.parseEnvLabels option (left ++ "," ++ right) reserveJob = .ok labels ↔
        ∃ xs ys, Args.parseEnvLabels option left reserveJob = .ok xs ∧
          Args.parseEnvLabels option right reserveJob = .ok ys ∧ labels = xs ++ ys) ∧
    ∀ raw labels, Args.parseEnvLabels option raw reserveJob = .ok labels →
      Args.parseEnvLabels option (serializeLabels labels) reserveJob = .ok labels := by
  refine ⟨fun labels h => ⟨parseEnvLabels_serialize h, fun raws => parseEnvLabels_padded h⟩, ?_, ?_⟩
  · intro left right hleft hright labels
    exact parseEnvLabels_append hleft hright
  · intro raw labels h
    exact parseEnvLabels_serialize (listable_of_parseEnvLabels h)

theorem env_labels_spaced :
    Args.parseEnvLabels "IPERF3_PUSH_LABELS"
      (",".intercalate [" site=a=b ", "\thost=東京"]) true =
        .ok [("site", "a=b"), ("host", "東京")] := by
  have hspace : Text.IsBlank " " := List.all_eq_true.mp rfl
  have htab : Text.IsBlank "\t" := List.all_eq_true.mp rfl
  have hnone : Text.IsBlank "" := List.all_eq_true.mp rfl
  refine ((env_labels "IPERF3_PUSH_LABELS" true).1 _ fun label hmem => ?_).2 _
    (.cons ⟨" ", " ", hspace, hspace, rfl⟩ (.cons ⟨"\t", "", htab, hnone, rfl⟩ .nil))
  rcases List.mem_cons.mp hmem with rfl | hmem
  · exact ⟨rfl, fun _ => rfl, by decide, by decide, fun c hc => by cases hc; rfl⟩
  · obtain rfl := List.mem_singleton.mp hmem
    exact ⟨rfl, fun _ => rfl, by decide, by decide, fun c hc => by cases hc; rfl⟩

end Iperf3Rs
