import Iperf3Rs.Base64Url
import Iperf3Rs.PercentEncoding
import Iperf3Rs.PushGatewayConfig
import Iperf3Rs.SeparatedItems

/-! The path of a grouping key on the Pushgateway, and that it can be read back. The gateway
decodes a path as a whole and splits it at its slashes after that. -/

namespace Iperf3Rs

/-- `URL_SAFE_NO_PAD` of the base64 crate. -/
structure Base64Engine where
  encode : List UInt8 → String
  decode : String → Option (List UInt8)
  decode_encode : ∀ bytes, decode (encode bytes) = some bytes
  encode_mem : ∀ bytes, ∀ c ∈ (encode bytes).toList, (c.isAlphanum || c == '-' || c == '_') = true
  encode_nil : encode [] = ""

def Base64Engine.urlSafeNoPad : Base64Engine where
  encode bytes := .ofList (Base64Url.encode bytes)
  decode text := Base64Url.decode text.toList
  decode_encode bytes := by rw [String.toList_ofList, Base64Url.decode_encode]
  encode_mem bytes c hc := Base64Url.encode_mem bytes (by rwa [String.toList_ofList] at hc)
  encode_nil := rfl

namespace PushGateway

def isUnreservedPathByte (byte : UInt8) : Bool :=
  let n := byte.toNat
  (65 ≤ n && n ≤ 90) || (97 ≤ n && n ≤ 122) || (48 ≤ n && n ≤ 57) || n == 45 || n == 95 ||
    n == 46 || n == 126

def hexTable : List Char := "0123456789ABCDEF".toList

def encodePathByte (byte : UInt8) : List Char :=
  if isUnreservedPathByte byte then [Char.ofNat byte.toNat]
  else ['%', hexTable.getD (byte >>> 4).toNat '0', hexTable.getD (byte &&& 0x0f).toNat '0']

def encodePathSegment (raw : String) : String := .ofList ((Text.bytes raw).flatMap encodePathByte)

variable (E : Base64Engine)

def needsBase64 (value : String) : Bool :=
  value.toList.contains '/' || value == "." || value == ".."

def appendGroupingPair (path name value : String) : String :=
  let path := path ++ "/" ++ name
  if needsBase64 value then path ++ "@base64/" ++ E.encode (Text.bytes value)
  else path ++ "/" ++ encodePathSegment value

def groupingPath (basePath job : String) (labels : List (String × String)) : String :=
  let path := Text.trimEndMatches '/' basePath ++ "/metrics"
  let path := appendGroupingPair E path "job" job
  labels.foldl (fun path (name, value) => appendGroupingPair E path name value) path

/-- What the gateway makes of two parts of a path. -/
def decodePair (name value : String) : Option (String × String) :=
  match Text.stripSuffix name "@base64" with
  | some name => (E.decode value).bind fun bytes =>
    (Text.ofBytes bytes).map fun value => (name, value)
  | none => some (name, value)

def decodePairs : List String → Option (List (String × String))
  | [] => some []
  | [_] => none
  | name :: value :: rest =>
    (decodePair E name value).bind fun pair => (decodePairs rest).map (pair :: ·)

def stripPrefix (s start : List Char) : Option (List Char) :=
  if start.isPrefixOf s then some (s.drop start.length) else none

/-- The grouping key of a path below `basePath`. -/
def decodeGroupingPath (basePath path : String) : Option (List (String × String)) :=
  let base := (Text.trimEndMatches '/' basePath).toList ++ "/metrics/".toList
  (stripPrefix path.toList base).bind fun rest =>
    (PercentEncoding.decode rest).bind fun bytes =>
      (Text.ofBytes bytes).bind fun text => decodePairs E (Text.split '/' text)

/-- The characters that stand for themselves in a segment. -/
def isPathChar (c : Char) : Bool :=
  c.isAlphanum || c == '-' || c == '_' || c == '.' || c == '~' || c == '@'

theorem encodePathByte_eq : ∀ n < 256, encodePathByte (UInt8.ofNat n) =
    PercentEncoding.encodeByte isUnreservedPathByte (UInt8.ofNat n) := by
  decide +kernel

theorem isPathChar_of_unreserved : ∀ n < 256, isUnreservedPathByte (UInt8.ofNat n) = true →
    n < 128 ∧ n ≠ 37 ∧ isPathChar (Char.ofNat n) = true := by
  decide +kernel

theorem encodePathSegment_toList (raw : String) : (encodePathSegment raw).toList =
    PercentEncoding.encode isUnreservedPathByte (Text.bytes raw) := by
  rw [encodePathSegment, String.toList_ofList, PercentEncoding.encode]
  refine List.flatMap_congr fun byte _ => ?_
  have hbyte := encodePathByte_eq byte.toNat byte.toNat_lt
  rwa [UInt8.ofNat_toNat] at hbyte

theorem unreserved_bounds {byte : UInt8} (h : isUnreservedPathByte byte = true) :
    (byte.toNat < 128 ∧ byte.toNat ≠ 37) ∧ isPathChar (Char.ofNat byte.toNat) = true := by
  have hbyte := isPathChar_of_unreserved byte.toNat byte.toNat_lt (by rwa [UInt8.ofNat_toNat])
  exact ⟨⟨hbyte.1, hbyte.2.1⟩, hbyte.2.2⟩

/-- A segment of a path that stands for `part`. -/
structure SegmentOf (segment : List Char) (part : String) : Prop where
  decodes : PercentEncoding.Decodes segment (Text.bytes part)
  escaped : PercentEncoding.Escaped isPathChar segment
  ne_nil : segment ≠ []
  no_slash : '/' ∉ part.toList
  not_dot : part ≠ "." ∧ part ≠ ".."

theorem ne_nil_of_decodes {segment : List Char} {part : String} (hne : part ≠ "")
    (h : PercentEncoding.Decodes segment (Text.bytes part)) : segment ≠ [] := by
  rintro rfl
  have hempty : Text.bytes "" = Text.bytes part := Option.some.inj h.decode_eq
  exact hne (Text.bytes_injective hempty).symm

theorem SegmentOf.of_value {value : String} (hne : value ≠ "") (h : needsBase64 value = false) :
    SegmentOf (encodePathSegment value).toList value := by
  simp only [needsBase64, Bool.or_eq_false_iff, beq_eq_false_iff_ne] at h
  obtain ⟨⟨hslash, hdot⟩, hdots⟩ := h
  have hbounds : ∀ byte, isUnreservedPathByte byte = true → (byte.toNat < 128 ∧ byte.toNat ≠ 37) ∧
      isPathChar (Char.ofNat byte.toNat) = true := fun _ => unreserved_bounds
  have hdecodes := PercentEncoding.decodes_encode (fun byte hb => (hbounds byte hb).1)
    (Text.bytes value)
  have hescaped := PercentEncoding.escaped_encode (fun byte hb => (hbounds byte hb).2)
    (Text.bytes value)
  rw [encodePathSegment_toList]
  exact ⟨hdecodes, hescaped, ne_nil_of_decodes hne hdecodes, by simpa using hslash, hdot, hdots⟩

def isPlain (c : Char) : Bool := c.isAlphanum || c == '_' || c == '-' || c == '@'

theorem ne_of_isPlain {c d : Char} (hc : isPlain c = true) (hd : isPlain d = false) : c ≠ d := by
  rintro rfl
  rw [hc] at hd
  cases hd

/-- A text of plain characters stands for itself. -/
theorem SegmentOf.of_plain {text : String} (hne : text ≠ "")
    (h : ∀ c ∈ text.toList, isPlain c = true) : SegmentOf text.toList text := by
  have hdecodes : PercentEncoding.Decodes text.toList (Text.bytes text) :=
    PercentEncoding.Decodes.chars fun c hc => ne_of_isPlain (h c hc) (by decide)
  have hdot : '.' ∉ text.toList := fun hc => ne_of_isPlain (h '.' hc) (by decide) rfl
  refine ⟨hdecodes, .chars fun c hc => ?_, ne_nil_of_decodes hne hdecodes, ?_, ?_, ?_⟩
  · have hplain := h c hc
    simp only [isPlain, Bool.or_eq_true] at hplain
    simp only [isPathChar, Bool.or_eq_true]
    tauto
  · exact fun hc => ne_of_isPlain (h '/' hc) (by decide) rfl
  · rintro rfl
    exact hdot (by decide)
  · rintro rfl
    exact hdot (by decide)

section Pairs

variable (E : Base64Engine)

def pairSegments (name value : String) : List (List Char) :=
  if needsBase64 value then
    [(name ++ "@base64").toList, (E.encode (Text.bytes value)).toList]
  else [name.toList, (encodePathSegment value).toList]

def pairParts (name value : String) : List String :=
  if needsBase64 value then [name ++ "@base64", E.encode (Text.bytes value)] else [name, value]

theorem appendGroupingPair_toList (path name value : String) :
    (appendGroupingPair E path name value).toList =
      path.toList ++ (pairSegments E name value).flatMap ('/' :: ·) := by
  simp only [appendGroupingPair, pairSegments]
  split <;> simp

theorem encode_ne_empty {value : String} (hne : value ≠ "") : E.encode (Text.bytes value) ≠ "" := by
  intro h
  have hdecode := E.decode_encode (Text.bytes value)
  rw [h, ← E.encode_nil, E.decode_encode] at hdecode
  have hempty : Text.bytes "" = Text.bytes value := Option.some.inj hdecode
  exact hne (Text.bytes_injective hempty).symm

theorem isPlain_of_identifier {name : String} (h : isIdentifier name = true) :
    ∀ c ∈ name.toList, isPlain c = true := by
  intro c hc
  have hrest := isIdentifier_rest h c hc
  simp only [isIdentifierRest, Bool.or_eq_true] at hrest
  simp only [isPlain, Bool.or_eq_true]
  tauto

theorem ne_empty_of_identifier {name : String} (h : isIdentifier name = true) : name ≠ "" := by
  rintro rfl
  cases h

theorem pairSegments_parts {name value : String} (hname : isIdentifier name = true)
    (hvalue : value ≠ "") :
    List.Forall₂ SegmentOf (pairSegments E name value) (pairParts E name value) := by
  have hplain := isPlain_of_identifier hname
  have hne := ne_empty_of_identifier hname
  simp only [pairSegments, pairParts]
  by_cases hneeds : needsBase64 value = true
  · rw [if_pos hneeds, if_pos hneeds]
    have hsuffix := List.all_eq_true.mp (by decide : "@base64".toList.all isPlain = true)
    have hlong : ∀ c ∈ (name ++ "@base64").toList, isPlain c = true := by
      intro c hc
      rw [String.toList_append] at hc
      rcases List.mem_append.mp hc with hc | hc
      · exact hplain c hc
      · exact hsuffix c hc
    have hencoded : ∀ c ∈ (E.encode (Text.bytes value)).toList, isPlain c = true := by
      intro c hc
      have hmem := E.encode_mem _ c hc
      simp only [Bool.or_eq_true] at hmem
      simp only [isPlain, Bool.or_eq_true]
      rcases hmem with (halnum | hdash) | hline
      · exact .inl (.inl (.inl halnum))
      · exact .inl (.inr hdash)
      · exact .inl (.inl (.inr hline))
    exact .cons (.of_plain (by simp) hlong)
      (.cons (.of_plain (encode_ne_empty E hvalue) hencoded) .nil)
  · rw [if_neg hneeds, if_neg hneeds]
    exact .cons (.of_plain hne hplain)
      (.cons (.of_value hvalue (Bool.eq_false_iff.mpr hneeds)) .nil)

theorem decodePair_parts {name value : String} (hname : isIdentifier name = true)
    {rest : List String} :
    decodePairs E (pairParts E name value ++ rest) =
      (decodePairs E rest).map ((name, value) :: ·) := by
  simp only [pairParts]
  by_cases hneeds : needsBase64 value = true
  · rw [if_pos hneeds]
    simp only [List.cons_append, List.nil_append, decodePairs, decodePair,
      Text.stripSuffix_append, E.decode_encode, Option.bind_some, Text.ofBytes_bytes, Option.map_some]
  · have hnone : Text.stripSuffix name "@base64" = none :=
      Text.stripSuffix_of_not_mem (c := '@') (by decide) (not_mem_of_isIdentifier hname (by decide))
    rw [if_neg hneeds]
    simp only [List.cons_append, List.nil_append, decodePairs, decodePair, hnone, Option.bind_some]

theorem decodePairs_parts {pairs : List (String × String)}
    (h : ∀ pair ∈ pairs, isIdentifier pair.1 = true) :
    decodePairs E (pairs.flatMap fun pair => pairParts E pair.1 pair.2) = some pairs := by
  induction pairs with
  | nil => rfl
  | cons pair pairs ih =>
    rw [List.flatMap_cons, decodePair_parts E (h pair List.mem_cons_self),
      ih fun p hp => h p (List.mem_cons_of_mem _ hp), Option.map_some]

theorem segments_parts {pairs : List (String × String)}
    (h : ∀ pair ∈ pairs, isIdentifier pair.1 = true ∧ pair.2 ≠ "") :
    List.Forall₂ SegmentOf (pairs.flatMap fun pair => pairSegments E pair.1 pair.2)
      (pairs.flatMap fun pair => pairParts E pair.1 pair.2) := by
  induction pairs with
  | nil => exact .nil
  | cons pair pairs ih =>
    obtain ⟨hname, hvalue⟩ := h pair List.mem_cons_self
    rw [List.flatMap_cons, List.flatMap_cons]
    exact List.rel_append (pairSegments_parts E hname hvalue)
      (ih fun p hp => h p (List.mem_cons_of_mem _ hp))

end Pairs

section Whole

theorem decodes_segments {segments : List (List Char)} {parts : List String}
    (h : List.Forall₂ SegmentOf segments parts) :
    PercentEncoding.Decodes (segments.flatMap ('/' :: ·))
      ((parts.flatMap fun part => '/' :: part.toList).flatMap String.utf8EncodeChar) := by
  induction h with
  | nil => exact .nil
  | cons hsegment _ ih =>
    have hslash : PercentEncoding.Decodes ['/'] (String.utf8EncodeChar '/') := .char (by decide)
    simpa [Text.bytes] using (hslash.append hsegment.decodes).append ih

/-- A path below the base, decoded as a whole and then split, gives the parts. -/
theorem split_of_segments {first : List Char} {segments : List (List Char)} {part : String}
    {parts : List String} (h : List.Forall₂ SegmentOf (first :: segments) (part :: parts)) :
    ∃ bytes text, PercentEncoding.decode (first ++ segments.flatMap ('/' :: ·)) = some bytes ∧
      Text.ofBytes bytes = some text ∧ Text.split '/' text = part :: parts := by
  obtain ⟨hfirst, hrest⟩ := List.forall₂_cons.mp h
  have hdecode := (hfirst.decodes.append (decodes_segments hrest)).decode_eq
  let text := String.ofList (['/'].intercalate ((part :: parts).map String.toList))
  have htext : Text.bytes text = Text.bytes part ++
      (parts.flatMap fun part => '/' :: part.toList).flatMap String.utf8EncodeChar := by
    simp only [text, Text.bytes, String.toList_ofList, List.map_cons,
      SeparatedItems.intercalate_cons, List.flatMap_append, List.flatMap_map]
  have hslash : ∀ chars ∈ (part :: parts).map String.toList, '/' ∉ chars := by
    intro chars hchars
    obtain ⟨p, hp, rfl⟩ := List.mem_map.mp hchars
    obtain ⟨segment, -, hsegment⟩ := exists_of_forall₂ h hp
    exact hsegment.no_slash
  refine ⟨_, text, hdecode, by rw [← htext, Text.ofBytes_bytes], ?_⟩
  rw [Text.split, String.toList_ofList, List.splitOn_intercalate '/' hslash (by simp),
    List.map_map]
  have hid : String.ofList ∘ String.toList = id := funext fun s => String.ofList_toList
  rw [hid, List.map_id]

variable (E : Base64Engine)

theorem groupingPath_toList (basePath job : String) (labels : List (String × String)) :
    (groupingPath E basePath job labels).toList =
      (Text.trimEndMatches '/' basePath).toList ++ ("metrics".toList ::
        (("job", job) :: labels).flatMap fun pair => pairSegments E pair.1 pair.2).flatMap
          ('/' :: ·) := by
  have hfold : ∀ (labels : List (String × String)) (path : String),
      (labels.foldl (fun path (name, value) => appendGroupingPair E path name value) path).toList =
        path.toList ++ (labels.flatMap fun pair =>
          pairSegments E pair.1 pair.2).flatMap ('/' :: ·) := by
    intro labels
    induction labels with
    | nil => simp
    | cons label labels ih =>
      intro path
      rw [List.foldl_cons, ih, appendGroupingPair_toList]
      simp
  rw [groupingPath, hfold, appendGroupingPair_toList]
  simp

/-- Segments of a URL path that stand for the current or the parent directory, in any spelling. -/
def IsDotSegment (segment : List Char) : Prop :=
  PercentEncoding.decode segment = some (Text.bytes ".") ∨
    PercentEncoding.decode segment = some (Text.bytes "..")

instance (segment : List Char) : Decidable (IsDotSegment segment) :=
  inferInstanceAs (Decidable (_ ∨ _))

/-- What a URL parser does to the dot segments of a path. -/
def removeDotSegments (done : List (List Char)) : List (List Char) → List (List Char)
  | [] => done
  | segment :: rest =>
    if PercentEncoding.decode segment = some (Text.bytes ".") then removeDotSegments done rest
    else if PercentEncoding.decode segment = some (Text.bytes "..") then
      removeDotSegments done.dropLast rest
    else removeDotSegments (done ++ [segment]) rest

example : IsDotSegment ".%2e".toList := by decide

theorem SegmentOf.not_isDotSegment {segment : List Char} {part : String}
    (h : SegmentOf segment part) : ¬ IsDotSegment segment := by
  rintro (hdot | hdot)
  · rw [h.decodes.decode_eq, Option.some.injEq] at hdot
    exact h.not_dot.1 (Text.bytes_injective hdot)
  · rw [h.decodes.decode_eq, Option.some.injEq] at hdot
    exact h.not_dot.2 (Text.bytes_injective hdot)

theorem removeDotSegments_eq {segments : List (List Char)}
    (h : ∀ segment ∈ segments, ¬ IsDotSegment segment) (done : List (List Char)) :
    removeDotSegments done segments = done ++ segments := by
  induction segments generalizing done with
  | nil => simp [removeDotSegments]
  | cons segment segments ih =>
    have hsegment := not_or.mp (h segment List.mem_cons_self)
    rw [removeDotSegments, if_neg hsegment.1, if_neg hsegment.2,
      ih fun s hs => h s (List.mem_cons_of_mem _ hs)]
    simp

def ValidGroup (job : String) (labels : List (String × String)) : Prop :=
  job ≠ "" ∧ ∀ label ∈ labels, PushGatewayConfig.isValidLabelName label.1 = true ∧ label.2 ≠ ""

/-- What the path of a grouping key guarantees. -/
structure KeyPath (basePath job : String) (labels : List (String × String)) : Prop where
  decoded : decodeGroupingPath E basePath (groupingPath E basePath job labels) =
    some (("job", job) :: labels)
  segments : ∃ segments, (groupingPath E basePath job labels).toList =
      (Text.trimEndMatches '/' basePath).toList ++ segments.flatMap ('/' :: ·) ∧
    (∀ segment ∈ segments, segment ≠ [] ∧ PercentEncoding.Escaped isPathChar segment ∧
      ¬ IsDotSegment segment) ∧
    ∀ done, removeDotSegments done segments = done ++ segments
  unique : ∀ job' labels', ValidGroup job' labels' →
    groupingPath E basePath job' labels' = groupingPath E basePath job labels →
      job' = job ∧ labels' = labels

variable {E} {basePath job : String} {labels : List (String × String)}

theorem ValidGroup.pairs (h : ValidGroup job labels) :
    ∀ pair ∈ ("job", job) :: labels, isIdentifier pair.1 = true ∧ pair.2 ≠ "" := by
  have hjob : isIdentifier "job" = true := by decide
  intro pair hpair
  rcases List.mem_cons.mp hpair with rfl | hpair
  · exact ⟨hjob, h.1⟩
  · exact h.2 pair hpair

theorem decodeGroupingPath_groupingPath (h : ValidGroup job labels) :
    decodeGroupingPath E basePath (groupingPath E basePath job labels) =
      some (("job", job) :: labels) := by
  have hparts := segments_parts E h.pairs
  have hpairs := decodePairs_parts E fun pair hpair => (h.pairs pair hpair).1
  have hpath := groupingPath_toList E basePath job labels
  revert hparts hpairs hpath
  generalize (("job", job) :: labels).flatMap (fun pair => pairSegments E pair.1 pair.2) = segments
  generalize (("job", job) :: labels).flatMap (fun pair => pairParts E pair.1 pair.2) = parts
  intro hparts hpairs hpath
  cases hparts with
  | nil => cases hpairs
  | @cons first part segments parts hfirst hrest =>
    obtain ⟨bytes, text, hdecode, htext, hsplit⟩ := split_of_segments (.cons hfirst hrest)
    have hpre : (groupingPath E basePath job labels).toList =
        ((Text.trimEndMatches '/' basePath).toList ++ "/metrics/".toList) ++
          (first ++ segments.flatMap ('/' :: ·)) := by
      rw [hpath]
      simp
    have hstrip : stripPrefix (groupingPath E basePath job labels).toList
        ((Text.trimEndMatches '/' basePath).toList ++ "/metrics/".toList) =
          some (first ++ segments.flatMap ('/' :: ·)) := by
      rw [hpre, stripPrefix, if_pos (by simp), List.drop_left]
    simp only [decodeGroupingPath, hstrip, Option.bind_some, hdecode, htext, hsplit, hpairs]

theorem grouping_path (E : Base64Engine) (basePath job : String) (labels : List (String × String))
    (h : ValidGroup job labels) : KeyPath E basePath job labels := by
  refine ⟨decodeGroupingPath_groupingPath h, ?_, ?_⟩
  · have hplain := List.all_eq_true.mp (by decide : "metrics".toList.all isPlain = true)
    have hmetrics : SegmentOf "metrics".toList "metrics" := .of_plain (by decide) hplain
    have hall := List.Forall₂.cons hmetrics (segments_parts E h.pairs)
    have hsegments : ∀ segment ∈ "metrics".toList ::
        (("job", job) :: labels).flatMap (fun pair => pairSegments E pair.1 pair.2),
        ∃ part, SegmentOf segment part := by
      intro segment hmem
      obtain ⟨part, -, hpart⟩ := exists_of_forall₂ hall.flip hmem
      exact ⟨part, hpart⟩
    refine ⟨_, groupingPath_toList E basePath job labels, fun segment hmem => ?_, ?_⟩
    · obtain ⟨part, hpart⟩ := hsegments segment hmem
      exact ⟨hpart.ne_nil, hpart.escaped, hpart.not_isDotSegment⟩
    · refine removeDotSegments_eq fun segment hmem => ?_
      obtain ⟨part, hpart⟩ := hsegments segment hmem
      exact hpart.not_isDotSegment
  · intro job' labels' h' hpath
    have hdecoded : decodeGroupingPath E basePath (groupingPath E basePath job' labels') =
        some (("job", job') :: labels') := decodeGroupingPath_groupingPath h'
    rw [hpath, decodeGroupingPath_groupingPath h, Option.some.injEq, List.cons.injEq,
      Prod.mk.injEq] at hdecoded
    exact ⟨hdecoded.1.2.symm, hdecoded.2.symm⟩

end Whole

end PushGateway

theorem grouping_path_slash_dots : PushGateway.KeyPath .urlSafeNoPad "/push//" "a/b"
    [("site", "."), ("case", "%2e@é")] :=
  PushGateway.grouping_path .urlSafeNoPad "/push//" "a/b" [("site", "."), ("case", "%2e@é")]
    ⟨by decide, by decide⟩

end Iperf3Rs
