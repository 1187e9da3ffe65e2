import Iperf3Rs.RustText
import Mathlib.Tactic.Common

/-! `getopt_long` and the loop of its caller. The words are read from the left; a word that is no
option is passed over, `--` ends the options, and the operand of an option may be the next word,
whatever it is. -/

namespace Iperf3Rs

namespace Getopt

inductive HasArg where
  | no
  | required
  | optional
  deriving DecidableEq

structure LongOption where
  name : String
  hasArg : HasArg
  val : ℕ
  deriving DecidableEq

/-- The short options by their letters, and the array of the long ones. -/
structure Table where
  short : Char → Option HasArg
  long : List LongOption

/-- What a call of `getopt_long` returns, with `optarg`. -/
abbrev Flag := ℕ × Option String

/-- An exact name, or else the front of one. Options that differ in nothing but their names do not
make a front ambiguous. -/
def resolve (table : Table) (name : String) : Option LongOption :=
  match table.long.find? fun o => o.name = name with
  | some o => some o
  | none =>
    match table.long.filter fun o => Text.startsWith o.name name with
    | [] => none
    | o :: others =>
      if others.all fun other => other.hasArg = o.hasArg ∧ other.val = o.val then some o else none

/-- What the calls at one word come to: the flags, whether the last call returns `?`, and how many
words have been taken. -/
structure Reading where
  flags : List Flag
  unknown : Bool
  span : ℕ

def unknownOption : Reading := ⟨[], true, 1⟩

/-- The name and the operand in the word itself. -/
def splitInline (text : String) : String × Option String :=
  match Text.splitOnce '=' text with
  | some (name, value) => (name, some value)
  | none => (text, none)

def readLong (table : Table) (text : String) (next : Option String) : Reading :=
  let (name, inline) := splitInline text
  match resolve table name with
  | none => unknownOption
  | some o =>
    match o.hasArg, inline, next with
    | .no, none, _ | .optional, none, _ => ⟨[(o.val, none)], false, 1⟩
    | .no, some _, _ | .required, none, none => unknownOption
    | .required, some value, _ | .optional, some value, _ => ⟨[(o.val, some value)], false, 1⟩
    | .required, none, some operand => ⟨[(o.val, some operand)], false, 2⟩

/-- The letters behind one dash, up to the first that takes an operand. -/
def readShort (table : Table) (next : Option String) : List Char → Reading
  | [] => ⟨[], false, 1⟩
  | c :: rest =>
    match table.short c with
    | none => unknownOption
    | some .no =>
      let reading := readShort table next rest
      { reading with flags := (c.toNat, none) :: reading.flags }
    | some .optional =>
      ⟨[(c.toNat, if rest = [] then none else some (.ofList rest))], false, 1⟩
    | some .required =>
      if rest = [] then
        match next with
        | none => unknownOption
        | some operand => ⟨[(c.toNat, some operand)], false, 2⟩
      else ⟨[(c.toNat, some (.ofList rest))], false, 1⟩

def read (table : Table) (word : String) (next : Option String) : Reading :=
  match word.toList with
  | '-' :: '-' :: text => readLong table (.ofList text) next
  | '-' :: c :: rest => readShort table next (c :: rest)
  | _ => ⟨[], false, 1⟩

section Resolve

variable {table : Table} {name : String} {o : LongOption}

/-- The front of a name that begins no other. -/
def Abbreviates (table : Table) (name : String) (o : LongOption) : Prop :=
  Text.startsWith o.name name = true ∧
    ∀ other ∈ table.long, Text.startsWith other.name name = true → other = o

/-- The table has the option once, and nothing else under its name or with its value. -/
structure Table.Sole (table : Table) (o : LongOption) : Prop where
  mem : o ∈ table.long
  only : ∀ other ∈ table.long, other.name = o.name ∨ other.val = o.val → other = o
  letters : ∀ c, table.short c ≠ none → c.toNat ≠ o.val

theorem resolve_mem (h : resolve table name = some o) : o ∈ table.long := by
  rw [resolve] at h
  split at h
  · next o' hfind =>
    cases h
    exact List.mem_of_find?_eq_some hfind
  · split at h
    · cases h
    · next o' others hfilter =>
      split at h
      · cases h
        exact (List.mem_filter.mp (hfilter ▸ List.mem_cons_self)).1
      · cases h

theorem resolve_iff (hsole : table.Sole o) :
    resolve table name = some o ↔ name = o.name ∨ Abbreviates table name o := by
  constructor
  · intro h
    rw [resolve] at h
    split at h
    · next o' hfind =>
      cases h
      have hname := List.find?_some hfind
      simp only [decide_eq_true_eq] at hname
      exact .inl hname.symm
    · split at h
      · cases h
      · next o' others hfilter =>
        split at h
        · next hall =>
          cases h
          have hhead : o ∈ table.long.filter fun o => Text.startsWith o.name name :=
            hfilter ▸ List.mem_cons_self
          refine .inr ⟨(List.mem_filter.mp hhead).2, fun other hother hstarts => ?_⟩
          have hmem : other ∈ table.long.filter fun o => Text.startsWith o.name name :=
            List.mem_filter.mpr ⟨hother, hstarts⟩
          rw [hfilter] at hmem
          rcases List.mem_cons.mp hmem with rfl | hmem
          · rfl
          · have hsame := List.all_eq_true.mp hall other hmem
            simp only [decide_eq_true_eq] at hsame
            exact hsole.only other hother (.inr hsame.2)
        · cases h
  · intro h
    rw [resolve]
    split
    · next o' hfind =>
      have hmem := List.mem_of_find?_eq_some hfind
      have hname := List.find?_some hfind
      simp only [decide_eq_true_eq] at hname
      rcases h with rfl | ⟨-, hunambiguous⟩
      · rw [hsole.only o' hmem (.inl hname)]
      · rw [hunambiguous o' hmem (by rw [hname]; exact Text.startsWith_self name)]
    · next hfind =>
      have hnamed : o.name ≠ name := by
        have hnone := List.find?_eq_none.mp hfind o hsole.mem
        simpa only [decide_eq_true_eq] using hnone
      rcases h with rfl | ⟨hstarts, hunambiguous⟩
      · exact absurd rfl hnamed
      · have hin : ∀ other ∈ table.long.filter fun o => Text.startsWith o.name name,
            other = o := by
          intro other hother
          obtain ⟨hmem, hstarts⟩ := List.mem_filter.mp hother
          exact hunambiguous other hmem hstarts
        split
        · next hfilter =>
          have hmem : o ∈ table.long.filter fun o => Text.startsWith o.name name :=
            List.mem_filter.mpr ⟨hsole.mem, hstarts⟩
          rw [hfilter] at hmem
          cases hmem
        · next first others hfilter =>
          obtain rfl := hin first (hfilter ▸ List.mem_cons_self)
          rw [if_pos]
          refine List.all_eq_true.mpr fun other hother => ?_
          rw [hin other (hfilter ▸ List.mem_cons_of_mem _ hother)]
          exact decide_eq_true ⟨rfl, rfl⟩

end Resolve

section Read

variable {table : Table} {o : LongOption} {name text : String} {next : Option String}

/-- The word is the long option under this name, and there is an operand for it. -/
def Spells (word name : String) (next : Option String) : Prop :=
  (word = "--" ++ name ∧ next.isSome = true) ∨ ∃ value, word = "--" ++ name ++ "=" ++ value

theorem not_mem_of_resolve (hsole : table.Sole o) (hplain : '=' ∉ o.name.toList)
    (hresolve : resolve table name = some o) : '=' ∉ name.toList := by
  rcases (resolve_iff hsole).mp hresolve with rfl | ⟨hstarts, -⟩
  · exact hplain
  · rw [Text.startsWith, List.isPrefixOf_iff_prefix] at hstarts
    exact fun hmem => hplain (hstarts.subset hmem)

theorem text_of_splitInline {inline : Option String} (h : splitInline text = (name, inline)) :
    (inline = none ∧ text = name) ∨
      ∃ value : String, inline = some value ∧ text = name ++ .ofList ('=' :: value.toList) := by
  rw [splitInline] at h
  split at h
  · next name' value hsplit =>
    cases h
    exact .inr ⟨value, rfl, Text.splitOnce_eq_some hsplit⟩
  · cases h
    exact .inl ⟨rfl, rfl⟩

theorem readLong_next (hresolve : resolve table name = some o) (hrequired : o.hasArg = .required)
    (hplain : '=' ∉ name.toList) (operand : String) :
    readLong table name (some operand) = ⟨[(o.val, some operand)], false, 2⟩ := by
  have hinline : splitInline name = (name, none) := by
    rw [splitInline, Text.splitOnce_of_not_mem hplain]
  simp only [readLong, hinline, hresolve, hrequired]

theorem readLong_inline (hresolve : resolve table name = some o) (hrequired : o.hasArg = .required)
    (hplain : '=' ∉ name.toList) (value : String) (next : Option String) :
    readLong table (name ++ .ofList ('=' :: value.toList)) next =
      ⟨[(o.val, some value)], false, 1⟩ := by
  have hinline : splitInline (name ++ .ofList ('=' :: value.toList)) = (name, some value) := by
    rw [splitInline, Text.splitOnce_append hplain]
  simp only [readLong, hinline, hresolve, hrequired]

theorem mem_readLong (hsole : table.Sole o) (hrequired : o.hasArg = .required) {operand : String}
    (h : (o.val, some operand) ∈ (readLong table text next).flags) :
    ∃ name, resolve table name = some o ∧
      ((text = name ∧ next.isSome = true) ∨
        ∃ value : String, text = name ++ .ofList ('=' :: value.toList)) := by
  rw [readLong] at h
  cases hsplit : splitInline text with
  | mk name inline =>
    simp only [hsplit] at h
    cases hresolve : resolve table name with
    | none =>
      rw [hresolve] at h
      cases h
    | some o' =>
      simp only [hresolve] at h
      have hval : o'.val = o.val := by
        split at h
        · exact (congrArg Prod.fst (List.mem_singleton.mp h)).symm
        · exact (congrArg Prod.fst (List.mem_singleton.mp h)).symm
        · cases h
        · cases h
        · exact (congrArg Prod.fst (List.mem_singleton.mp h)).symm
        · exact (congrArg Prod.fst (List.mem_singleton.mp h)).symm
        · exact (congrArg Prod.fst (List.mem_singleton.mp h)).symm
      obtain rfl := hsole.only o' (resolve_mem hresolve) (.inr hval)
      refine ⟨name, hresolve, ?_⟩
      rcases text_of_splitInline hsplit with ⟨rfl, rfl⟩ | ⟨value, -, htext⟩
      · refine .inl ⟨rfl, ?_⟩
        cases next with
        | none =>
          simp only [hrequired] at h
          cases h
        | some operand => rfl
      · exact .inr ⟨value, htext⟩

theorem mem_readShort {letters : List Char} {flag : Flag}
    (h : flag ∈ (readShort table next letters).flags) :
    ∃ c, table.short c ≠ none ∧ flag.1 = c.toNat := by
  induction letters with
  | nil => cases h
  | cons c rest ih =>
    unfold readShort at h
    split at h
    · cases h
    · next hno =>
      rcases List.mem_cons.mp h with rfl | h
      · exact ⟨c, by rw [hno]; exact nofun, rfl⟩
      · exact ih h
    · next hoptional =>
      rw [List.mem_singleton.mp h]
      exact ⟨c, by rw [hoptional]; exact nofun, rfl⟩
    · next hrequired =>
      have hshort : table.short c ≠ none := by
        rw [hrequired]
        exact nofun
      split at h
      · split at h
        · cases h
        · rw [List.mem_singleton.mp h]
          exact ⟨c, hshort, rfl⟩
      · rw [List.mem_singleton.mp h]
        exact ⟨c, hshort, rfl⟩

theorem read_long (text : String) :
    read table ("--" ++ text) next = readLong table text next := by
  have hword : ("--" ++ text).toList = '-' :: '-' :: text.toList := by
    rw [String.toList_append]
    rfl
  simp only [read, hword, String.ofList_toList]

/-- A required operand of a sole long option comes from the option itself: spelled in full or by
a front that is unambiguous, with the operand inline or in the next word. -/
theorem flag_of_spelling (hsole : table.Sole o) (hrequired : o.hasArg = .required)
    (hplain : '=' ∉ o.name.toList) {word : String}
    (hname : name = o.name ∨ Abbreviates table name o) (hspells : Spells word name next) :
    ∃ operand, (read table word next).flags = [(o.val, some operand)] := by
  have hresolve := (resolve_iff hsole).mpr hname
  have hbare := not_mem_of_resolve hsole hplain hresolve
  rcases hspells with ⟨rfl, hnext⟩ | ⟨value, rfl⟩
  · obtain ⟨operand, rfl⟩ := Option.isSome_iff_exists.mp hnext
    rw [read_long, readLong_next hresolve hrequired hbare]
    exact ⟨operand, rfl⟩
  · have hword : "--" ++ name ++ "=" ++ value =
        "--" ++ (name ++ .ofList ('=' :: value.toList)) := by
      rw [← String.toList_inj]
      simp
    rw [hword, read_long, readLong_inline hresolve hrequired hbare]
    exact ⟨value, rfl⟩

theorem spelling_of_flag (hsole : table.Sole o) (hrequired : o.hasArg = .required)
    {word operand : String} (h : (o.val, some operand) ∈ (read table word next).flags) :
    ∃ name, (name = o.name ∨ Abbreviates table name o) ∧ Spells word name next := by
  rw [read] at h
  split at h
  · next text hword =>
    obtain ⟨name, hresolve, hshape⟩ := mem_readLong hsole hrequired h
    have hdashes : word = "--" ++ .ofList text := by
      rw [← String.toList_inj, hword]
      simp
    refine ⟨name, (resolve_iff hsole).mp hresolve, ?_⟩
    rcases hshape with ⟨htext, hnext⟩ | ⟨value, htext⟩
    · exact .inl ⟨htext ▸ hdashes, hnext⟩
    · refine .inr ⟨value, ?_⟩
      rw [hdashes, htext, ← String.toList_inj]
      simp
  · obtain ⟨c, hshort, hval⟩ := mem_readShort h
    exact absurd hval.symm (hsole.letters c hshort)
  · cases h

end Read

section Loop

variable {R : Type}

/-- The body of the loop on the flags of one word. It sees the flags before, and may return. -/
def handle (body : List Flag → Flag → Option R) : List Flag → List Flag → List Flag × Option R
  | history, [] => (history, none)
  | history, flag :: flags =>
    match body history flag with
    | some result => (history ++ [flag], some result)
    | none => handle body (history ++ [flag]) flags

inductive Ended (R : Type) where
  | finished
  | unknown
  | returned (result : R)

/-- The loop, with the flags that the body has seen. A `?` ends it too. `skip` words are
operands. -/
def loop (table : Table) (body : List Flag → Flag → Option R) :
    List String → ℕ → List Flag → List Flag × Ended R
  | [], _, history => (history, .finished)
  | _ :: rest, skip + 1, history => loop table body rest skip history
  | word :: rest, 0, history =>
    if word = "--" then (history, .finished)
    else
      let reading := read table word rest.head?
      match handle body history reading.flags with
      | (history, some result) => (history, .returned result)
      | (history, none) =>
        if reading.unknown then (history, .unknown)
        else loop table body rest (reading.span - 1) history

/-- The words at which the loop looks for an option, each with the word behind it. -/
inductive LooksAt (table : Table) (body : List Flag → Flag → Option R) :
    List Flag → ℕ → List String → String → Option String → Prop
  | here (history : List Flag) (word : String) (rest : List String) (hdash : word ≠ "--") :
      LooksAt table body history 0 (word :: rest) word rest.head?
  | operand (history : List Flag) (skip : ℕ) (other : String) (rest : List String) (word : String)
      (next : Option String) (h : LooksAt table body history skip rest word next) :
      LooksAt table body history (skip + 1) (other :: rest) word next
  | later (history history' : List Flag) (other : String) (rest : List String) (word : String)
      (next : Option String) (hdash : other ≠ "--")
      (hhandle : handle body history (read table other rest.head?).flags = (history', none))
      (hknown : (read table other rest.head?).unknown = false)
      (h : LooksAt table body history' ((read table other rest.head?).span - 1) rest word next) :
      LooksAt table body history 0 (other :: rest) word next

variable {table : Table} {body : List Flag → Flag → Option R}

theorem LooksAt.mem {history : List Flag} {skip : ℕ} {words : List String} {word : String}
    {next : Option String} (h : LooksAt table body history skip words word next) :
    word ∈ words := by
  induction h with
  | here history word rest hdash => exact List.mem_cons_self
  | operand history skip other rest word next h ih => exact List.mem_cons_of_mem _ ih
  | later history history' other rest word next hdash hhandle hknown h ih =>
    exact List.mem_cons_of_mem _ ih

theorem handle_keeps {history flags history' : List Flag} {result : Option R} {flag : Flag}
    (h : handle body history flags = (history', result)) (hflag : flag ∈ history) :
    flag ∈ history' := by
  induction flags generalizing history with
  | nil =>
    rw [handle] at h
    cases h
    exact hflag
  | cons first flags ih =>
    rw [handle] at h
    split at h
    · cases h
      exact List.mem_append_left _ hflag
    · exact ih h (List.mem_append_left _ hflag)

theorem mem_of_handle {history flags history' : List Flag} {result : Option R} {flag : Flag}
    (h : handle body history flags = (history', result)) (hflag : flag ∈ history') :
    flag ∈ history ∨ flag ∈ flags := by
  induction flags generalizing history with
  | nil =>
    rw [handle] at h
    cases h
    exact .inl hflag
  | cons first flags ih =>
    rw [handle] at h
    split at h
    · cases h
      rcases List.mem_append.mp hflag with hflag | hflag
      · exact .inl hflag
      · exact .inr (List.mem_singleton.mp hflag ▸ List.mem_cons_self)
    · rcases ih h with hflag | hflag
      · rcases List.mem_append.mp hflag with hflag | hflag
        · exact .inl hflag
        · exact .inr (List.mem_singleton.mp hflag ▸ List.mem_cons_self)
      · exact .inr (List.mem_cons_of_mem _ hflag)

/-- The body sees the first flag of a word in any case. -/
theorem handle_first {history flags history' : List Flag} {result : Option R} {flag : Flag}
    (h : handle body history (flag :: flags) = (history', result)) : flag ∈ history' := by
  rw [handle] at h
  split at h
  · cases h
    exact List.mem_append_right _ List.mem_cons_self
  · exact handle_keeps h (List.mem_append_right _ List.mem_cons_self)

theorem loop_keeps {words : List String} {skip : ℕ} {history : List Flag} {flag : Flag}
    (hflag : flag ∈ history) : flag ∈ (loop table body words skip history).1 := by
  induction words generalizing skip history with
  | nil =>
    rw [loop]
    exact hflag
  | cons word rest ih =>
    cases skip with
    | succ skip =>
      rw [loop]
      exact ih hflag
    | zero =>
      rw [loop]
      split
      · exact hflag
      · simp only
        split
        · next history' result hhandle => exact handle_keeps hhandle hflag
        · next history' hhandle =>
          have hkept := handle_keeps hhandle hflag
          split
          · exact hkept
          · exact ih hkept

theorem mem_loop_of_looksAt {words : List String} {skip : ℕ} {history : List Flag} {word : String}
    {next : Option String} {flag : Flag} (h : LooksAt table body history skip words word next)
    (hflags : (read table word next).flags = [flag]) :
    flag ∈ (loop table body words skip history).1 := by
  induction h with
  | here history word rest hdash =>
    rw [loop, if_neg hdash]
    simp only
    split
    · next history' result hhandle =>
      rw [hflags] at hhandle
      exact handle_first hhandle
    · next history' hhandle =>
      rw [hflags] at hhandle
      have hseen := handle_first hhandle
      split
      · exact hseen
      · exact loop_keeps hseen
  | operand history skip other rest word next h ih =>
    rw [loop]
    exact ih hflags
  | later history history' other rest word next hdash hhandle hknown h ih =>
    rw [loop, if_neg hdash]
    simp only [hhandle, hknown, Bool.false_eq_true, if_false]
    exact ih hflags

theorem looksAt_of_mem_loop {words : List String} {skip : ℕ} {history : List Flag} {flag : Flag}
    (h : flag ∈ (loop table body words skip history).1) :
    flag ∈ history ∨
      ∃ word next, LooksAt table body history skip words word next ∧
        flag ∈ (read table word next).flags := by
  induction words generalizing skip history with
  | nil =>
    rw [loop] at h
    exact .inl h
  | cons first rest ih =>
    cases skip with
    | succ skip =>
      rw [loop] at h
      rcases ih h with hflag | ⟨word, next, hlooks, hflag⟩
      · exact .inl hflag
      · exact .inr ⟨word, next, .operand history skip first rest word next hlooks, hflag⟩
    | zero =>
      rw [loop] at h
      split at h
      · exact .inl h
      · next hdash =>
        have hhere : LooksAt table body history 0 (first :: rest) first rest.head? :=
          .here history first rest hdash
        simp only at h
        split at h
        · next history' result hhandle =>
          rcases mem_of_handle hhandle h with hflag | hflag
          · exact .inl hflag
          · exact .inr ⟨first, rest.head?, hhere, hflag⟩
        · next history' hhandle =>
          have hnow : flag ∈ history' → flag ∈ history ∨
              ∃ word next, LooksAt table body history 0 (first :: rest) word next ∧
                flag ∈ (read table word next).flags := by
            intro hflag
            rcases mem_of_handle hhandle hflag with hflag | hflag
            · exact .inl hflag
            · exact .inr ⟨first, rest.head?, hhere, hflag⟩
          split at h
          · exact hnow h
          · next hknown =>
            rw [Bool.not_eq_true] at hknown
            rcases ih h with hflag | ⟨word, next, hlooks, hflag⟩
            · exact hnow hflag
            · refine .inr ⟨word, next, ?_, hflag⟩
              exact .later history history' first rest word next hdash hhandle hknown hlooks

end Loop

end Getopt

end Iperf3Rs
