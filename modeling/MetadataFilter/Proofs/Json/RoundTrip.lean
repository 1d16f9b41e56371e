import Mathlib.Tactic.Choose
import MetadataFilter.Proofs.Json.Numeral
import MetadataFilter.Proofs.Json.Quoted
import MetadataFilter.Proofs.SortedMap
import MetadataFilter.Proofs.Text.Stops

/-!
# JSON reads back what it writes

A value whose lists and objects do not nest too deep, and whose objects have their members in the
order of their keys (`Json.Fits`), is read back from what is written for it
(`Json.ofText?_write`). The text has no control character, so it is always a single line
(`Json.newline_not_mem_write`).

A value is read up to its end and no further: each lemma has an arbitrary rest behind the text.
Only a number needs to know something of that rest, namely that it does not go on as a number.
-/

namespace MetadataFilter.Json

open Text

/-- Lists and objects nest at most `levels` deep, and the members of every object are in the order
of their keys, each key once. -/
inductive Fits : (levels : Nat) → (value : Json) → Prop
  | null (levels : Nat) : Fits levels .null
  | bool (levels : Nat) (b : Bool) : Fits levels (.bool b)
  | number (levels : Nat) (number : Number) : Fits levels (.number number)
  | string (levels : Nat) (s : String) : Fits levels (.string s)
  | array {levels : Nat} {items : List Json} (each : ∀ item ∈ items, Fits levels item) :
      Fits (levels + 1) (.array items)
  | object {levels : Nat} {members : List (String × Json)} (sorted : SortedKeys members)
      (each : ∀ member ∈ members, Fits levels member.2) : Fits (levels + 1) (.object members)

/-- The text begins with a character that is neither blank nor the given bracket. -/
def Begins (close : Char) (text : List Char) : Prop :=
  ∃ c rest, text = c :: rest ∧ isBlank c = false ∧ c ≠ close

theorem skipBlanks_cons {c : Char} (h : isBlank c = false) (rest : List Char) :
    skipBlanks (c :: rest) = c :: rest :=
  List.dropWhile_cons_of_neg (by rw [h]; exact Bool.false_ne_true)

/-! ## Lists of items -/

section Items

variable {α : Type} {close : Char} {readItem : (text : List Char) → Option (Text.Step α text)}

theorem readItems_last {text rest : List Char} {value : α}
    (item : Reads (readItem text) value (close :: rest)) (notBlank : isBlank close = false) :
    Reads (readItems close readItem text) [value] rest := by
  obtain ⟨step, read, rfl, after⟩ := item
  have skip : skipBlanks step.rest = close :: rest := by
    rw [after]
    exact skipBlanks_cons notBlank rest
  rw [readItems, read]
  simp only
  split
  · rename_i none
    rw [none] at skip
    cases skip
  · rename_i c more next
    obtain ⟨rfl, rfl⟩ := List.cons.inj (next.symm.trans skip)
    rw [if_pos rfl]
    exact ⟨_, rfl, rfl, rfl⟩

theorem readItems_more {text after rest : List Char} {value : α} {values : List α}
    (item : Reads (readItem text) value (',' :: after)) (notComma : close ≠ ',')
    (items : Reads (readItems close readItem after) values rest) :
    Reads (readItems close readItem text) (value :: values) rest := by
  obtain ⟨step, read, rfl, behind⟩ := item
  obtain ⟨others, read', rfl, rfl⟩ := items
  have skip : skipBlanks step.rest = ',' :: after := by
    rw [behind]
    exact skipBlanks_cons rfl after
  rw [readItems, read]
  simp only
  split
  · rename_i none
    rw [none] at skip
    cases skip
  · rename_i c more next
    obtain ⟨rfl, rfl⟩ := List.cons.inj (next.symm.trans skip)
    rw [if_neg notComma.symm, if_pos rfl, read']
    exact ⟨_, rfl, rfl, rfl⟩

theorem readList_cons {c : Char} (notBlank : isBlank c = false) (text : List Char) :
    readList close readItem (c :: text) =
      if c = close then some ⟨[], text, Nat.lt_succ_self _⟩
      else readItems close readItem (c :: text) := by
  have skip := skipBlanks_cons notBlank text
  rw [readList]
  split
  · rename_i none
    rw [none] at skip
    cases skip
  · rename_i d more next
    obtain ⟨rfl, rfl⟩ := List.cons.inj (next.symm.trans skip)
    rfl

theorem commaSeparated_cons {text : List Char} {rest : List (List Char)} (h : rest ≠ []) :
    commaSeparated (text :: rest) = text ++ ',' :: commaSeparated rest := by
  cases rest with
  | nil => exact absurd rfl h
  | cons next rest => rfl

theorem Begins.append {text : List Char} (h : Begins close text) (rest : List Char) :
    Begins close (text ++ rest) := by
  obtain ⟨c, behind, rfl, notBlank, notClose⟩ := h
  exact ⟨c, behind ++ rest, rfl, notBlank, notClose⟩

theorem begins_commaSeparated {text : List Char} (h : Begins close text)
    (rest : List (List Char)) : Begins close (commaSeparated (text :: rest)) := by
  cases rest with
  | nil => exact h
  | cons next rest => exact h.append _

variable {ι : Type} {items : List ι} {text : ι → List Char} {value : ι → α}
  (ends : isNumeralChar close = false) (notBlank : isBlank close = false) (notComma : close ≠ ',')
  (each : ∀ item ∈ items, ∀ rest, Stops isNumeralChar rest →
    Reads (readItem (text item ++ rest)) (value item) rest)

include ends notBlank notComma each

theorem readItems_commaSeparated (h : items ≠ []) (rest : List Char) :
    Reads (readItems close readItem (commaSeparated (items.map text) ++ close :: rest))
      (items.map value) rest := by
  induction items with
  | nil => exact absurd rfl h
  | cons item others ih =>
    have read := each item List.mem_cons_self
    have reads := ih fun other mem => each other (List.mem_cons_of_mem item mem)
    by_cases last : others = []
    · subst last
      exact readItems_last (read _ (stops_cons ends rest)) notBlank
    · rw [List.map_cons, commaSeparated_cons (mt List.map_eq_nil_iff.1 last), List.append_assoc]
      exact readItems_more (read _ (stops_cons rfl _)) notComma (reads last)

/-- Written items are read one by one. -/
theorem readList_commaSeparated (begins : ∀ item ∈ items, Begins close (text item))
    (rest : List Char) :
    Reads (readList close readItem (commaSeparated (items.map text) ++ close :: rest))
      (items.map value) rest := by
  by_cases none : items = []
  · subst none
    rw [List.map_nil, commaSeparated, List.nil_append, readList_cons notBlank, if_pos rfl]
    exact ⟨_, rfl, rfl, rfl⟩
  · have reads := readItems_commaSeparated ends notBlank notComma each none rest
    obtain ⟨item, others, rfl⟩ := List.exists_cons_of_ne_nil none
    have first := begins_commaSeparated (begins item List.mem_cons_self) (others.map text)
    obtain ⟨c, behind, written, other, notClose⟩ := first.append (close :: rest)
    rw [List.map_cons, written] at reads ⊢
    rw [readList_cons other, if_neg notClose]
    exact reads

end Items

theorem readMember_write {α : Type} {readValue : (text : List Char) → Option (Text.Step α text)}
    {text : List Char} {value : α} {rest : List Char} (read : Reads (readValue text) value rest)
    (key : String) :
    Reads (readMember readValue (quote key.toList ++ ':' :: text)) (key, value) rest := by
  obtain ⟨quoted, unquoted, keyValue, behind⟩ := unquote?_quote key.toList (':' :: text)
  obtain ⟨step, readStep, rfl, rfl⟩ := read
  have skip : skipBlanks (quote key.toList ++ ':' :: text) =
      '"' :: (key.toList.flatMap escapeChar ++ '"' :: ':' :: text) := by
    simp only [quote, List.cons_append, List.append_assoc, List.nil_append]
    exact skipBlanks_cons rfl _
  have skip' : skipBlanks quoted.rest = ':' :: text := by
    rw [behind]
    exact skipBlanks_cons rfl _
  rw [readMember]
  split
  · rename_i opened next
    obtain rfl := (List.cons.inj (next.symm.trans skip)).2
    rw [unquoted]
    simp only
    split
    · rename_i after colon
      obtain rfl := (List.cons.inj (colon.symm.trans skip')).2
      rw [readStep]
      exact ⟨_, rfl, by rw [keyValue, String.ofList_toList], rfl⟩
    · rename_i noColon
      exact absurd skip' (noColon text)
  · rename_i noQuote
    exact absurd skip (noQuote _)

/-! ## Single values -/

namespace Written

variable {levels : Nat} {text rest : List Char}

theorem read_cons {c : Char} (notBlank : isBlank c = false) (levels : Nat) (text : List Char) :
    read levels (c :: text) =
      if c = '"' then
        (unquote? text).map fun s =>
          ⟨.string (String.ofList s.value), s.rest, Nat.lt_succ_of_lt s.shorter⟩
      else if c = '[' then
        match levels with
        | 0 => none
        | levels + 1 => (readList ']' (read levels) text).map fun s =>
            ⟨.array s.value, s.rest, Nat.lt_succ_of_lt s.shorter⟩
      else if c = '\x7b' then
        match levels with
        | 0 => none
        | levels + 1 => (readList '\x7d' (readMember (read levels)) text).map fun s =>
            ⟨.object s.value, s.rest, Nat.lt_succ_of_lt s.shorter⟩
      else
        match (readWord (c :: text)).or (readNumeral (c :: text)) with
        | none => none
        | some (value, after) =>
          if h : after.length < (c :: text).length then some ⟨value, after, h⟩ else none := by
  have skip := skipBlanks_cons notBlank text
  rw [read.eq_def]
  split
  · rename_i none
    rw [none] at skip
    cases skip
  · rename_i d more next
    obtain ⟨rfl, rfl⟩ := List.cons.inj (next.symm.trans skip)
    rfl

theorem read_string {s : List Char} (h : Reads (unquote? text) s rest) :
    Reads (read levels ('"' :: text)) (.string (String.ofList s)) rest := by
  obtain ⟨step, unquoted, rfl, rfl⟩ := h
  rw [read_cons rfl, if_pos rfl, unquoted]
  exact ⟨_, rfl, rfl, rfl⟩

theorem read_array {items : List Written} (h : Reads (readList ']' (read levels) text) items rest) :
    Reads (read (levels + 1) ('[' :: text)) (.array items) rest := by
  obtain ⟨step, list, rfl, rfl⟩ := h
  rw [read_cons rfl, if_neg (by decide), if_pos rfl]
  simp only [list]
  exact ⟨_, rfl, rfl, rfl⟩

theorem read_object {members : List (String × Written)}
    (h : Reads (readList '\x7d' (readMember (read levels)) text) members rest) :
    Reads (read (levels + 1) ('\x7b' :: text)) (.object members) rest := by
  obtain ⟨step, list, rfl, rfl⟩ := h
  rw [read_cons rfl, if_neg (by decide), if_neg (by decide), if_pos rfl]
  simp only [list]
  exact ⟨_, rfl, rfl, rfl⟩

/-- A value that is neither quoted nor bracketed is a word or a numeral. -/
theorem read_bare {c : Char} {value : Written} (notBlank : isBlank c = false) (notQuote : c ≠ '"')
    (notBracket : c ≠ '[') (notBrace : c ≠ '\x7b') (shorter : rest.length < (c :: text).length)
    (h : (readWord (c :: text)).or (readNumeral (c :: text)) = some (value, rest)) :
    Reads (read levels (c :: text)) value rest := by
  rw [read_cons notBlank, if_neg notQuote, if_neg notBracket, if_neg notBrace, h]
  simp only
  rw [dif_pos shorter]
  exact ⟨_, rfl, rfl, rfl⟩

theorem read_null (rest : List Char) :
    Reads (read levels ("null".toList ++ rest)) .null rest :=
  read_bare rfl (by decide) (by decide) (by decide) (by simp; omega) rfl

theorem read_bool (b : Bool) (rest : List Char) :
    Reads (read levels ((if b then "true" else "false").toList ++ rest)) (.bool b) rest := by
  cases b with
  | true => exact read_bare rfl (by decide) (by decide) (by decide) (by simp; omega) rfl
  | false => exact read_bare rfl (by decide) (by decide) (by decide) (by simp; omega) rfl

theorem readWord_of_isNumeralChar {c : Char} (h : isNumeralChar c = true) (text : List Char) :
    readWord (c :: text) = none := by
  have other {w : Char} (letter : isNumeralChar w = false) (word : List Char) :
      dropWord? (w :: word) (c :: text) = none := by
    rw [dropWord?, if_neg]
    rintro rfl
    rw [h] at letter
    cases letter
  have notNull : dropWord? "null".toList (c :: text) = none := other rfl _
  have notTrue : dropWord? "true".toList (c :: text) = none := other rfl _
  have notFalse : dropWord? "false".toList (c :: text) = none := other rfl _
  rw [readWord, notNull, notTrue, notFalse]
  rfl

theorem readNumeral_append {n : Numeral} (spelled : Numeral.Spelled text n)
    (stops : Stops isNumeralChar rest) :
    readNumeral (text ++ rest) = some (.number n, rest) := by
  rw [readNumeral, takeWhile_append_stops spelled.isNumeralChar stops,
    dropWhile_append_stops spelled.isNumeralChar stops, spelled.ofText?_eq]
  rfl

/-- A character of a number is neither a blank nor anything that opens, separates or closes. -/
theorem isBlank_of_isNumeralChar {c : Char} (h : isNumeralChar c = true) : isBlank c = false := by
  by_contra blank
  simp only [isBlank, Bool.not_eq_false, Bool.or_eq_true, beq_iff_eq] at blank
  rcases blank with ((rfl | rfl) | rfl) | rfl <;> revert h <;> decide

theorem ne_of_isNumeralChar {c d : Char} (h : isNumeralChar c = true)
    (other : isNumeralChar d = false) : c ≠ d := by
  rintro rfl
  rw [h] at other
  cases other

theorem read_number {n : Numeral} (spelled : Numeral.Spelled text n)
    (stops : Stops isNumeralChar rest) :
    Reads (read levels (text ++ rest)) (.number n) rest := by
  have numeral := readNumeral_append spelled stops
  obtain ⟨c, more, rfl⟩ := List.exists_cons_of_ne_nil spelled.ne_nil
  have first : isNumeralChar c = true := spelled.isNumeralChar c List.mem_cons_self
  rw [List.cons_append] at numeral ⊢
  refine read_bare (isBlank_of_isNumeralChar first) (ne_of_isNumeralChar first rfl)
    (ne_of_isNumeralChar first rfl) (ne_of_isNumeralChar first rfl) ?_ ?_
  · rw [List.length_cons, List.length_append]
    omega
  · rw [readWord_of_isNumeralChar first, numeral]
    rfl

end Written

/-! ## Whole values -/

theorem writeItems_eq_map (items : List Json) : writeItems items = items.map write := by
  induction items with
  | nil => rfl
  | cons item rest ih => rw [writeItems, ih, List.map_cons]

/-- The text of a member. -/
def writeMember (member : String × Json) : List Char :=
  quote member.1.toList ++ ':' :: write member.2

theorem writeMembers_eq_map (members : List (String × Json)) :
    writeMembers members = members.map writeMember := by
  induction members with
  | nil => rfl
  | cons member rest ih => rw [writeMembers, ih, List.map_cons, writeMember]

theorem begins_write {close : Char} (ends : isNumeralChar close = false)
    (closes : close ∉ ['n', 't', 'f', '"', '[', '\x7b']) (value : Json) :
    Begins close value.write := by
  have other {c : Char} (mem : c ∈ ['n', 't', 'f', '"', '[', '\x7b']) : c ≠ close :=
    ne_of_mem_of_not_mem mem closes
  cases value with
  | null => exact ⟨'n', _, rfl, rfl, other (by decide)⟩
  | bool b =>
    cases b with
    | true => exact ⟨'t', _, rfl, rfl, other (by decide)⟩
    | false => exact ⟨'f', _, rfl, rfl, other (by decide)⟩
  | number number =>
    obtain ⟨n, spelled, -⟩ := number.exists_numeral
    obtain ⟨c, rest, text⟩ := List.exists_cons_of_ne_nil spelled.ne_nil
    have first : isNumeralChar c = true :=
      spelled.isNumeralChar c (text ▸ List.mem_cons_self)
    exact ⟨c, rest, text, Written.isBlank_of_isNumeralChar first,
      Written.ne_of_isNumeralChar first ends⟩
  | string s => exact ⟨'"', _, rfl, rfl, other (by decide)⟩
  | array items => exact ⟨'[', _, rfl, rfl, other (by decide)⟩
  | object members => exact ⟨'\x7b', _, rfl, rfl, other (by decide)⟩

theorem Written.items?_map {items : List Json} {written : Json → Written}
    (h : ∀ item ∈ items, (written item).value? = some item) :
    items? (items.map written) = some items := by
  induction items with
  | nil => rfl
  | cons item rest ih =>
    have others := ih fun other mem => h other (List.mem_cons_of_mem item mem)
    rw [List.map_cons, items?, h item List.mem_cons_self, others]

theorem Written.members?_map {members : List (String × Json)}
    {written : String × Json → Written}
    (h : ∀ member ∈ members, (written member).value? = some member.2) :
    members? (members.map fun member => (member.1, written member)) = some members := by
  induction members with
  | nil => rfl
  | cons member rest ih =>
    have others := ih fun other mem => h other (List.mem_cons_of_mem member mem)
    rw [List.map_cons, members?, h member List.mem_cons_self, others]

instance : Inhabited Written := ⟨.null⟩

/-- The text is read as the value, up to its end. -/
def ReadAs (levels : Nat) (text : List Char) (value : Json) : Prop :=
  ∃ written : Written, written.value? = some value ∧
    ∀ rest, Stops isNumeralChar rest → Reads (Written.read levels (text ++ rest)) written rest

theorem readAs_write {levels : Nat} {value : Json} (fits : Fits levels value) :
    ReadAs levels value.write value := by
  induction fits with
  | null levels => exact ⟨.null, rfl, fun rest _ => Written.read_null rest⟩
  | bool levels b => exact ⟨.bool b, rfl, fun rest _ => Written.read_bool b rest⟩
  | number levels number =>
    obtain ⟨n, spelled, reads⟩ := number.exists_numeral
    refine ⟨.number n, ?_, fun rest stops => Written.read_number spelled stops⟩
    rw [Written.value?, reads]
    rfl
  | string levels s =>
    refine ⟨.string s, rfl, fun rest _ => ?_⟩
    have quoted : Reads (Written.read levels ('"' :: (s.toList.flatMap escapeChar ++ '"' :: rest)))
        (.string (String.ofList s.toList)) rest :=
      Written.read_string (unquote?_quote s.toList rest)
    rw [String.ofList_toList] at quoted
    rw [write, quote, List.cons_append, List.cons_append, List.append_assoc]
    exact quoted
  | @array levels items each ih =>
    choose! written values reads using ih
    refine ⟨.array (items.map written), ?_, fun rest _ => ?_⟩
    · rw [Written.value?, Written.items?_map values]
      rfl
    · have ends : isNumeralChar ']' = false := rfl
      have list := readList_commaSeparated ends rfl (by decide) reads
        (fun item _ => begins_write rfl (by decide) item) rest
      rw [write, writeItems_eq_map, List.cons_append, List.cons_append, List.append_assoc]
      exact Written.read_array list
  | @object levels members sorted each ih =>
    choose! written values reads using ih
    refine ⟨.object (members.map fun member => (member.1, written member)), ?_, fun rest _ => ?_⟩
    · rw [Written.value?, Written.members?_map values, Option.map_some]
      exact congrArg (some ∘ Json.object) (sortEntries_of_sorted sorted)
    · have ends : isNumeralChar '\x7d' = false := rfl
      have reads' : ∀ member ∈ members, ∀ behind, Stops isNumeralChar behind →
          Reads (readMember (Written.read levels) (writeMember member ++ behind))
            (member.1, written member) behind := by
        intro member mem behind stops
        rw [writeMember, List.append_assoc, List.cons_append]
        exact readMember_write (reads member mem behind stops) member.1
      have list := readList_commaSeparated ends rfl (by decide) reads'
        (fun member _ => ⟨'"', _, rfl, rfl, by decide⟩) rest
      rw [write, writeMembers_eq_map, List.cons_append, List.cons_append, List.append_assoc]
      exact Written.read_object list

/-- **A value is read back from what is written for it.** -/
theorem ofText?_write {value : Json} (fits : Fits maxNesting value) :
    ofText? value.write = some value := by
  obtain ⟨written, isValue, reads⟩ := readAs_write fits
  have whole := reads [] (stops_nil _)
  rw [List.append_nil] at whole
  obtain ⟨step, read, rfl, rest⟩ := whole
  have read : Written.ofText? value.write = some step.value := by
    rw [Written.ofText?, read]
    simp only [rest, skipBlanks, List.dropWhile_nil, List.isEmpty_nil, if_true]
  rw [ofText?, read]
  exact isValue

/-! ## Control characters -/

theorem not_control_of_isNumeralChar {c : Char} (h : isNumeralChar c = true) : 0x20 ≤ c.toNat := by
  simp only [isNumeralChar, Bool.or_eq_true, beq_iff_eq] at h
  rcases h with ((((digit | rfl) | rfl) | rfl) | rfl) | rfl
  · exact le_trans (by decide) (Char.isDigit_iff_toNat.1 digit).1
  all_goals decide

theorem not_control_of_all {text : List Char} (h : text.all (0x20 ≤ ·.toNat) = true) :
    ∀ c ∈ text, 0x20 ≤ c.toNat :=
  fun c mem => of_decide_eq_true (List.all_eq_true.1 h c mem)

theorem mem_commaSeparated {c : Char} {texts : List (List Char)} (h : c ∈ commaSeparated texts) :
    c = ',' ∨ ∃ text ∈ texts, c ∈ text := by
  induction texts using commaSeparated.induct with
  | case1 => cases h
  | case2 text => exact .inr ⟨text, List.mem_singleton_self text, h⟩
  | case3 text rest more ih =>
    rw [commaSeparated_cons (fun none => more none)] at h
    rcases List.mem_append.1 h with mem | h
    · exact .inr ⟨text, List.mem_cons_self, mem⟩
    rcases List.mem_cons.1 h with comma | h
    · exact .inl comma
    rcases ih h with comma | ⟨other, mem, within⟩
    · exact .inl comma
    · exact .inr ⟨other, List.mem_cons_of_mem text mem, within⟩

/-- What stands between brackets is commas and texts. -/
theorem not_control_of_mem_list {opening closing c : Char} {texts : List (List Char)}
    (opens : 0x20 ≤ opening.toNat) (closes : 0x20 ≤ closing.toNat)
    (each : ∀ text ∈ texts, ∀ c ∈ text, 0x20 ≤ c.toNat)
    (h : c ∈ opening :: commaSeparated texts ++ [closing]) : 0x20 ≤ c.toNat := by
  rcases List.mem_append.1 h with h | h
  · rcases List.mem_cons.1 h with rfl | h
    · exact opens
    rcases mem_commaSeparated h with rfl | ⟨text, mem, within⟩
    · decide
    · exact each text mem c within
  · rw [List.mem_singleton.1 h]
    exact closes

mutual

theorem not_control_of_mem_write : (value : Json) → ∀ c ∈ value.write, 0x20 ≤ c.toNat
  | .null => not_control_of_all rfl
  | .bool true => not_control_of_all rfl
  | .bool false => not_control_of_all rfl
  | .number x => by
    obtain ⟨n, spelled, -⟩ := x.exists_numeral
    exact fun c mem => not_control_of_isNumeralChar (spelled.isNumeralChar c mem)
  | .string s => fun c mem => not_control_of_mem_quote mem
  | .array items => fun c mem =>
    not_control_of_mem_list (by decide) (by decide) (not_control_of_mem_writeItems items) mem
  | .object members => fun c mem =>
    not_control_of_mem_list (by decide) (by decide) (not_control_of_mem_writeMembers members) mem

theorem not_control_of_mem_writeItems :
    (items : List Json) → ∀ text ∈ writeItems items, ∀ c ∈ text, 0x20 ≤ c.toNat
  | [] => nofun
  | item :: rest => by
    intro text mem
    rcases List.mem_cons.1 mem with rfl | mem
    · exact not_control_of_mem_write item
    · exact not_control_of_mem_writeItems rest text mem

theorem not_control_of_mem_writeMembers :
    (members : List (String × Json)) → ∀ text ∈ writeMembers members, ∀ c ∈ text, 0x20 ≤ c.toNat
  | [] => nofun
  | (key, value) :: rest => by
    intro text mem c within
    rcases List.mem_cons.1 mem with rfl | mem
    · rcases List.mem_append.1 within with quoted | within
      · exact not_control_of_mem_quote quoted
      rcases List.mem_cons.1 within with rfl | within
      · decide
      · exact not_control_of_mem_write value c within
    · exact not_control_of_mem_writeMembers rest text mem c within

end

/-- **What is written for a value is a single line.** -/
theorem newline_not_mem_write (value : Json) : '\n' ∉ value.write := fun mem =>
  absurd (not_control_of_mem_write value '\n' mem) (by decide)

end MetadataFilter.Json
