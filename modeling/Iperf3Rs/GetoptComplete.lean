import Iperf3Rs.UpstreamParse

/-! Command lines made of whole options, each of which is read in the same way whatever stands
behind it. -/

namespace Iperf3Rs

namespace Getopt

variable {R : Type} {table : Table} {body : List Flag → Flag → Option R}

/-- The body of the loop on all the flags of a command line. -/
def given (body : List Flag → Flag → Option R) (history flags : List Flag) : List Flag × Ended R :=
  match handle body history flags with
  | (history, some result) => (history, .returned result)
  | (history, none) => (history, .finished)

/-- The words are read as these flags, whatever stands behind them. -/
inductive Complete (table : Table) : List String → List Flag → Prop
  | nil : Complete table [] []
  | option (word : String) (operands : List String) (flags : List Flag) (hdash : word ≠ "--")
      (hread : ∀ later : List String, read table word (operands ++ later).head? =
        ⟨flags, false, operands.length + 1⟩) :
      Complete table (word :: operands) flags
  | append {words later : List String} {flags more : List Flag} (h : Complete table words flags)
      (hlater : Complete table later more) : Complete table (words ++ later) (flags ++ more)

theorem Complete.loop_append {words : List String} {flags : List Flag}
    (h : Complete table words flags) (body : List Flag → Flag → Option R) (rest : List String)
    (history : List Flag) :
    (∃ history' result, handle body history flags = (history', some result) ∧
      loop table body (words ++ rest) 0 history = (history', .returned result)) ∨
    ∃ history', handle body history flags = (history', none) ∧
      loop table body (words ++ rest) 0 history = loop table body rest 0 history' := by
  induction h generalizing rest history with
  | nil => exact .inr ⟨history, rfl, rfl⟩
  | option word operands flags hdash hread =>
    rw [List.cons_append, loop, if_neg hdash, hread rest]
    cases hhandle : handle body history flags with
    | mk history' result =>
      simp only [hhandle]
      cases result with
      | some result => exact .inl ⟨history', result, rfl, rfl⟩
      | none => exact .inr ⟨history', rfl, loop_operands operands rest history'⟩
  | @append words later flags more h hlater ih ihlater =>
    rw [List.append_assoc, handle_append]
    rcases ih (later ++ rest) history with ⟨history', result, hhandle, hloop⟩ |
      ⟨history', hhandle, hloop⟩
    · rw [hhandle]
      exact .inl ⟨history', result, rfl, hloop⟩
    · rw [hhandle, hloop]
      exact ihlater rest history'

theorem Complete.loop_eq {words : List String} {flags : List Flag}
    (h : Complete table words flags) (body : List Flag → Flag → Option R) (history : List Flag) :
    loop table body words 0 history = given body history flags := by
  have hloop := h.loop_append body [] history
  rw [List.append_nil] at hloop
  rcases hloop with ⟨history', result, hhandle, hloop⟩ | ⟨history', hhandle, hloop⟩
  · rw [hloop, given, hhandle]
  · rw [hloop, given, hhandle]
    rfl

theorem Complete.flatMap {α : Type} {words : α → List String} {flags : α → List Flag}
    {items : List α} (h : ∀ item ∈ items, Complete table (words item) (flags item)) :
    Complete table (items.flatMap words) (items.flatMap flags) := by
  induction items with
  | nil => exact .nil
  | cons item items ih =>
    exact .append (h item List.mem_cons_self) (ih fun i hi => h i (List.mem_cons_of_mem _ hi))

section Words

variable {word : String} {c : Char}

theorem letter_ne (hword : word.toList = ['-', c]) (hc : c ≠ '-') : word ≠ "--" := by
  rintro rfl
  exact hc (List.cons.inj (List.cons.inj hword).2).1.symm

theorem read_letter (hword : word.toList = ['-', c]) (hc : c ≠ '-') (next : Option String) :
    read table word next = readShort table next [c] := by
  rw [read, hword]
  split
  · next heq => exact absurd (List.cons.inj (List.cons.inj heq).2).1 hc
  · next heq =>
    obtain ⟨rfl, rfl⟩ := List.cons.inj (List.cons.inj heq).2
    rfl
  · next hno => exact absurd rfl (hno c [])

theorem complete_letter (hword : word.toList = ['-', c]) (hc : c ≠ '-')
    (hshort : table.short c = some .no) : Complete table [word] [(c.toNat, none)] := by
  refine .option word [] _ (letter_ne hword hc) fun later => ?_
  rw [read_letter hword hc]
  simp [readShort, hshort]

theorem complete_letter_operand (hword : word.toList = ['-', c]) (hc : c ≠ '-')
    (hshort : table.short c = some .required) (operand : String) :
    Complete table [word, operand] [(c.toNat, some operand)] := by
  refine .option word [operand] _ (letter_ne hword hc) fun later => ?_
  rw [read_letter hword hc]
  simp [readShort, hshort]

end Words

section Names

variable {name : String} {o : LongOption}

theorem dashes_append_ne (hname : name ≠ "") : "--" ++ name ≠ "--" := by
  intro h
  have hlist := congrArg String.toList h
  rw [String.toList_append] at hlist
  exact hname (String.toList_inj.mp (List.append_right_eq_self.mp hlist))

theorem complete_name (hname : name ≠ "") (hplain : '=' ∉ name.toList)
    (hresolve : resolve table name = some o) (hbare : o.hasArg = .no) :
    Complete table ["--" ++ name] [(o.val, none)] := by
  refine .option _ [] _ (dashes_append_ne hname) fun later => ?_
  have hinline : splitInline name = (name, none) := by
    rw [splitInline, Text.splitOnce_of_not_mem hplain]
  rw [read_long, readLong, hinline]
  simp only [hresolve, hbare]
  rfl

theorem complete_name_operand (hname : name ≠ "") (hplain : '=' ∉ name.toList)
    (hresolve : resolve table name = some o) (hrequired : o.hasArg = .required)
    (operand : String) : Complete table ["--" ++ name, operand] [(o.val, some operand)] := by
  refine .option _ [operand] _ (dashes_append_ne hname) fun later => ?_
  rw [read_long]
  exact readLong_next hresolve hrequired hplain operand

end Names

end Getopt

end Iperf3Rs
