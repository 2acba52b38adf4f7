import Mathlib
import TrafficBoard.Proofs.Json.Tokens

namespace TrafficBoard.Json

/-!
# Written documents — what is written of a value is read as the value

* `Readable` says which values have only parts that can be read back at their level;
* `elements_renderItems` and `members_renderMembers` go through the inside of a container in the way
  of the reader, `Readable.readsBack` through a value;
* `parse?_render` is the whole of a document.

The reader skips space before a value and before a mark, so a part is given by what is left once the
space before it is skipped. Every part is shorter than the text that it stands in, so fuel for the
text is fuel for the part.
-/

/-! ### Space -/

/-- Space at the front is skipped. -/
theorem skipSpace_space {space : List Char} (h : ∀ c ∈ space, isSpace c) (s : List Char) :
    skipSpace (space ++ s) = skipSpace s :=
  List.dropWhile_append_of_pos h

/-- Where there is no space, none is skipped. -/
theorem skipSpace_cons {c : Char} (h : isSpace c = false) (s : List Char) :
    skipSpace (c :: s) = c :: s :=
  List.dropWhile_cons_of_neg (by rw [h]; exact Bool.false_ne_true)

/-- A new line and its indentation are space. -/
theorem isSpace_newLine (level : Nat) : ∀ c ∈ (newLine level).toList, isSpace c := by
  intro c hc
  rw [newLine, String.toList_ofList, List.mem_cons, List.mem_replicate] at hc
  rcases hc with rfl | ⟨-, rfl⟩
  · decide
  · decide

/-- A digit is no space. -/
theorem isSpace_of_isDigit {c : Char} (h : Text.isDigit c) : isSpace c = false := by
  by_contra hspace
  simp only [isSpace, Bool.or_eq_true, decide_eq_true_eq, Bool.not_eq_false] at hspace
  rcases hspace with ((rfl | rfl) | rfl) | rfl
  all_goals exact absurd h (by decide)

/-- A numeral ends before space and before a mark that it cannot go on with. -/
theorem ends_space {space : List Char} (h : ∀ c ∈ space, isSpace c) {mark : Char}
    (hmark : goesOn mark = false) (s : List Char) : Ends (space ++ mark :: s) := by
  cases space with
  | nil => exact ends_cons hmark s
  | cons c space =>
    refine ends_cons ?_ _
    have hspace := h c List.mem_cons_self
    simp only [isSpace, Bool.or_eq_true, decide_eq_true_eq] at hspace
    rcases hspace with ((rfl | rfl) | rfl) | rfl
    all_goals decide

/-! ### Documents -/

/-- A value all of whose parts can be read at their level as they are written. -/
inductive Readable : Nat → Json → Prop where
  | null (level : Nat) : Readable level .null
  | bool (level : Nat) (b : Bool) : Readable level (.bool b)
  | number (level : Nat) {n : Num} (fits : n.Fits) : Readable level (.number n)
  | text (level : Nat) (s : String) : Readable level (.text s)
  | array {level : Nat} {items : List Json} (depth : level ≤ maxDepth)
      (inside : ∀ v ∈ items, Readable (level + 1) v) : Readable level (.array items)
  | object {level : Nat} {ms : List (String × Json)} (depth : level ≤ maxDepth)
      (inside : ∀ m ∈ ms, Readable (level + 1) m.2) : Readable level (.object ms)

/-- A value is read back at a level, with what comes after it left over. -/
def ReadsBack (level : Nat) (v : Json) : Prop :=
  ∀ (indent : Nat) {fuel : Nat} {s rest : List Char}, (renderAt indent v).toList.length ≤ fuel →
    skipSpace s = (renderAt indent v).toList ++ rest → Ends rest →
      value fuel level s = some (v, rest)

/-- The parts of a container, one a line. -/
def joined (indent : Nat) (parts : List String) : List Char :=
  (String.intercalate ("," ++ newLine indent) parts).toList

@[simp] theorem joined_single (indent : Nat) (part : String) :
    joined indent [part] = part.toList := by
  simp [joined]

theorem joined_cons_cons (indent : Nat) (part next : String) (parts : List String) :
    joined indent (part :: next :: parts) =
      part.toList ++ ',' :: ((newLine indent).toList ++ joined indent (next :: parts)) := by
  simp [joined, String.intercalate_cons_cons]

/-- The parts start as the first of them does. -/
theorem exists_joined {part : String} {c : Char} {s : List Char} (hpart : part.toList = c :: s)
    (indent : Nat) (parts : List String) : ∃ t, joined indent (part :: parts) = c :: t := by
  cases parts with
  | nil => exact ⟨s, by rw [joined_single, hpart]⟩
  | cons next parts => exact ⟨_, by rw [joined_cons_cons, hpart, List.cons_append]⟩

/-- The space before a part is skipped, if the part does not start with space itself. -/
theorem skipSpace_joined {space : List Char} (hspace : ∀ c ∈ space, isSpace c) {part : String}
    {c : Char} {s : List Char} (hpart : part.toList = c :: s) (hc : isSpace c = false)
    (indent : Nat) (parts : List String) (rest : List Char) :
    skipSpace (space ++ (joined indent (part :: parts) ++ rest)) =
      joined indent (part :: parts) ++ rest := by
  obtain ⟨t, hjoined⟩ := exists_joined hpart indent parts
  rw [skipSpace_space hspace, hjoined]
  exact skipSpace_cons hc _

/-- A container without parts. -/
theorem toList_bracket_nil (opening closing : String) (level : Nat) :
    (bracket opening closing level []).toList = opening.toList ++ closing.toList := by
  simp [bracket]

/-- A container with parts. -/
theorem toList_bracket (opening closing : String) (level : Nat) (part : String)
    (parts : List String) : (bracket opening closing level (part :: parts)).toList =
      opening.toList ++ ((newLine (level + 1)).toList ++ (joined (level + 1) (part :: parts) ++
        ((newLine level).toList ++ closing.toList))) := by
  simp [bracket, joined]

section Bracket

variable {opening closing : String} {first last : Char} (hopening : opening.toList = [first])
  (hclosing : closing.toList = [last])

include hopening hclosing

/-- A container is longer than its parts by its two marks. -/
theorem length_joined_lt (indent : Nat) (part : String) (parts : List String) :
    (joined (indent + 1) (part :: parts)).length + 1 <
      (bracket opening closing indent (part :: parts)).toList.length := by
  rw [toList_bracket, hopening, hclosing]
  simp only [List.length_append, List.length_singleton]
  omega

/-- The inside of a container, once its first mark and the space after it are taken: it starts with
the first part, and ends with the other mark. -/
theorem exists_inside {part : String} {c : Char} {t : List Char} (hpart : part.toList = c :: t)
    (hc : isSpace c = false) {indent : Nat} {parts : List String} {s rest : List Char}
    (hs : skipSpace s = (bracket opening closing indent (part :: parts)).toList ++ rest) :
    ∃ more t, skipSpace s = first :: more ∧ skipSpace more = c :: t ∧
      skipSpace (c :: t) =
        joined (indent + 1) (part :: parts) ++ ((newLine indent).toList ++ last :: rest) := by
  obtain ⟨t, hjoined⟩ := exists_joined hpart (indent + 1) parts
  refine ⟨(newLine (indent + 1)).toList ++ (joined (indent + 1) (part :: parts) ++
    ((newLine indent).toList ++ last :: rest)), t ++ ((newLine indent).toList ++ last :: rest),
    ?_, ?_, ?_⟩
  · rw [hs, toList_bracket, hopening, hclosing]
    simp
  · rw [skipSpace_joined (isSpace_newLine _) hpart hc, hjoined, List.cons_append]
  · rw [skipSpace_cons hc, hjoined, List.cons_append]

end Bracket

/-- What is written of a text. -/
theorem toList_quote (s : String) : (quote s).toList = '"' :: (encodeText s.toList ++ ['"']) := by
  simp [quote]

/-- The first character of a value is no space, and closes no container. -/
theorem exists_renderAt {level : Nat} {v : Json} (hv : Readable level v) (indent : Nat) :
    ∃ c s, (renderAt indent v).toList = c :: s ∧ isSpace c = false ∧ c ≠ ']' := by
  cases hv with
  | null => exact ⟨'n', ['u', 'l', 'l'], by rw [renderAt]; rfl, by decide, by decide⟩
  | bool _ b =>
    cases b with
    | false => exact ⟨'f', ['a', 'l', 's', 'e'], by rw [renderAt]; rfl, by decide, by decide⟩
    | true => exact ⟨'t', ['r', 'u', 'e'], by rw [renderAt]; rfl, by decide, by decide⟩
  | @number _ n fits =>
    cases n with
    | real x => exact fits.elim
    | whole n =>
      obtain ⟨c, s, htext, hc⟩ := exists_toString n
      refine ⟨c, s, htext, ?_, ?_⟩
      · rcases hc with hc | rfl
        · exact isSpace_of_isDigit hc
        · decide
      · rintro rfl
        revert hc
        decide
  | text _ s => exact ⟨'"', _, toList_quote s, by decide, by decide⟩
  | @array _ items =>
    cases items with
    | nil =>
      refine ⟨'[', [']'], ?_, by decide, by decide⟩
      rw [renderAt, renderItems, toList_bracket_nil]
      rfl
    | cons v items => exact ⟨'[', _, toList_bracket "[" "]" indent _ _, by decide, by decide⟩
  | @object _ ms =>
    cases ms with
    | nil =>
      refine ⟨'\x7b', ['\x7d'], ?_, by decide, by decide⟩
      rw [renderAt, renderMembers, toList_bracket_nil]
      rfl
    | cons m ms =>
      exact ⟨'\x7b', _, toList_bracket "\x7b" "\x7d" indent _ _, by decide, by decide⟩

/-! ### Containers -/

section Containers

variable (indent : Nat) {level fuel : Nat} {s space rest : List Char}

/-- **The items of an array** are read back, if each of them is. -/
theorem elements_renderItems {v : Json} {items : List Json}
    (hitems : ∀ w ∈ v :: items, Readable level w ∧ ReadsBack level w)
    (hspace : ∀ c ∈ space, isSpace c)
    (hfuel : (joined indent (renderItems indent (v :: items))).length < fuel)
    (hs : skipSpace s = joined indent (renderItems indent (v :: items)) ++ (space ++ ']' :: rest)) :
    elements fuel level s = some (v :: items, rest) := by
  induction items generalizing v fuel s with
  | nil =>
    obtain ⟨fuel, rfl⟩ := Nat.exists_eq_succ_of_ne_zero (Nat.ne_zero_of_lt hfuel)
    rw [renderItems, renderItems, joined_single] at hs hfuel
    have hvalue : value fuel level s = some (v, space ++ ']' :: rest) :=
      (hitems v List.mem_cons_self).2 indent (Nat.le_of_lt_succ hfuel) hs
        (ends_space hspace (by decide) rest)
    have hclose : skipSpace (space ++ ']' :: rest) = ']' :: rest := by
      rw [skipSpace_space hspace, skipSpace_cons (by decide)]
    simp only [elements, hvalue, Option.bind_eq_bind, Option.bind_some, hclose]
    rfl
  | cons w items ih =>
    obtain ⟨fuel, rfl⟩ := Nat.exists_eq_succ_of_ne_zero (Nat.ne_zero_of_lt hfuel)
    obtain ⟨hv, hrest⟩ := List.forall_mem_cons.1 hitems
    have htext : joined indent (renderItems indent (v :: w :: items)) =
        (renderAt indent v).toList ++
          ',' :: ((newLine indent).toList ++ joined indent (renderItems indent (w :: items))) :=
      joined_cons_cons indent _ _ _
    rw [htext] at hs hfuel
    simp only [List.length_append, List.length_cons] at hfuel
    have hvalue : value fuel level s = some (v, ',' :: ((newLine indent).toList ++
        (joined indent (renderItems indent (w :: items)) ++ (space ++ ']' :: rest)))) :=
      hv.2 indent (by omega) (by rw [hs]; simp) (ends_cons (by decide) _)
    obtain ⟨c, t, hw, hc, -⟩ := exists_renderAt (hrest w List.mem_cons_self).1 indent
    have helements : elements fuel level ((newLine indent).toList ++
        (joined indent (renderItems indent (w :: items)) ++ (space ++ ']' :: rest))) =
        some (w :: items, rest) :=
      ih hrest (by omega) (skipSpace_joined (isSpace_newLine indent) hw hc indent _ _)
    have hcomma (s : List Char) : skipSpace (',' :: s) = ',' :: s := skipSpace_cons (by decide) s
    simp only [elements, hvalue, Option.bind_eq_bind, Option.bind_some, hcomma, helements]
    rfl

/-- What is written of a member. -/
theorem toList_member (name : String) (v : Json) :
    (quote name ++ ": " ++ renderAt indent v).toList =
      '"' :: (encodeText name.toList ++ '"' :: ':' :: ' ' :: (renderAt indent v).toList) := by
  simp [quote]

/-- A member is read back up to what comes after its value. -/
theorem members_front {name : String} {v : Json} (hv : Readable level v) (hback : ReadsBack level v)
    (hfuel : (renderAt indent v).toList.length ≤ fuel) (hrest : Ends rest)
    (hs : skipSpace s = (quote name ++ ": " ++ renderAt indent v).toList ++ rest) :
    members (fuel + 1) level s =
      match skipSpace rest with
      | ',' :: rest => do
        let (ms, rest) ← members fuel level rest
        return ((some name, v) :: ms, rest)
      | '\x7d' :: rest => some ([(some name, v)], rest)
      | _ => none := by
  obtain ⟨units, hlex, hunits⟩ := exists_units name.toList
    (':' :: ' ' :: ((renderAt indent v).toList ++ rest))
  obtain ⟨c, t, htext, hc, -⟩ := exists_renderAt hv indent
  have hvalue : value fuel level (' ' :: ((renderAt indent v).toList ++ rest)) = some (v, rest) :=
    hback indent hfuel (by rw [htext]; exact skipSpace_cons hc _) hrest
  have hname : textOf units = some name := by
    rw [textOf, hunits, Option.map_some, String.ofList_toList]
  have hcolon (s : List Char) : skipSpace (':' :: s) = ':' :: s := skipSpace_cons (by decide) s
  rw [toList_member, List.cons_append, List.append_assoc, List.cons_append, List.cons_append,
    List.cons_append] at hs
  simp only [members, hs, hlex, Option.bind_eq_bind, Option.bind_some, hcolon, hvalue, hname]
  rfl

/-- **The members of an object** are read back, if the value of each is. -/
theorem members_renderMembers {m : String × Json} {ms : List (String × Json)}
    (hms : ∀ w ∈ m :: ms, Readable level w.2 ∧ ReadsBack level w.2)
    (hspace : ∀ c ∈ space, isSpace c)
    (hfuel : (joined indent (renderMembers indent (m :: ms))).length < fuel)
    (hs : skipSpace s = joined indent (renderMembers indent (m :: ms)) ++
      (space ++ '\x7d' :: rest)) :
    members fuel level s = some ((m :: ms).map fun w => (some w.1, w.2), rest) := by
  induction ms generalizing m fuel s with
  | nil =>
    obtain ⟨fuel, rfl⟩ := Nat.exists_eq_succ_of_ne_zero (Nat.ne_zero_of_lt hfuel)
    obtain ⟨hv, hback⟩ := hms m List.mem_cons_self
    rw [renderMembers, renderMembers, joined_single] at hs hfuel
    have hlength : (renderAt indent m.2).toList.length ≤ fuel := by
      rw [toList_member] at hfuel
      simp only [List.length_append, List.length_cons] at hfuel
      omega
    rw [members_front indent hv hback hlength (ends_space hspace (by decide) rest) hs,
      skipSpace_space hspace, skipSpace_cons (by decide)]
    rfl
  | cons w ms ih =>
    obtain ⟨fuel, rfl⟩ := Nat.exists_eq_succ_of_ne_zero (Nat.ne_zero_of_lt hfuel)
    obtain ⟨⟨hv, hback⟩, hrest⟩ := List.forall_mem_cons.1 hms
    have htext : joined indent (renderMembers indent (m :: w :: ms)) =
        (quote m.1 ++ ": " ++ renderAt indent m.2).toList ++
          ',' :: ((newLine indent).toList ++ joined indent (renderMembers indent (w :: ms))) :=
      joined_cons_cons indent _ _ _
    rw [htext, List.append_assoc, List.cons_append, List.append_assoc] at hs
    rw [htext, toList_member] at hfuel
    simp only [List.length_append, List.length_cons] at hfuel
    have hmembers : members fuel level ((newLine indent).toList ++
        (joined indent (renderMembers indent (w :: ms)) ++ (space ++ '\x7d' :: rest))) =
        some ((w :: ms).map fun w => (some w.1, w.2), rest) :=
      ih hrest (by omega) (skipSpace_joined (isSpace_newLine indent) (toList_member indent _ _)
        (by decide) indent _ _)
    rw [members_front indent hv hback (by omega) (ends_cons (by decide) _) hs,
      skipSpace_cons (by decide)]
    show (members fuel level _).bind _ = _
    rw [hmembers]
    rfl

end Containers

/-- Members with names that can be read make an object. -/
theorem objectOf_named (ms : List (String × Json)) :
    objectOf (ms.map fun m => (some m.1, m.2)) = .object ms := by
  have hnames : (ms.map fun m => (some m.1, m.2)).mapM
      (fun (m : Option String × Json) => m.1.map fun name => (name, m.2)) = some ms := by
    induction ms with
    | nil => rfl
    | cons m ms ih =>
      rw [List.map_cons, List.mapM_cons, ih]
      rfl
  unfold objectOf
  rw [hnames]

/-- A text that starts like a numeral is read as one. -/
theorem value_numeral (fuel level : Nat) {s t : List Char} {c : Char} (hs : skipSpace s = c :: t)
    (hc : Text.isDigit c ∨ c = '-') : value (fuel + 1) level s = lexNumber (skipSpace s) := by
  have hne {d : Char} {more : List Char} (h : c :: t = d :: more) : Text.isDigit d ∨ d = '-' := by
    obtain ⟨rfl, -⟩ := List.cons.inj h
    exact hc
  rw [value, hs]
  split
  case h_7 => rfl
  -- None of the marks that start another value is a digit or the sign.
  all_goals
    rename_i h
    exact absurd (hne h) (by decide)

/-- After its opening bracket and a character that does not close it, an array has its items. -/
theorem value_array (fuel level : Nat) {s more t : List Char} {c : Char}
    (hopen : skipSpace s = '[' :: more) (hitems : skipSpace more = c :: t) (hc : c ≠ ']') :
    value (fuel + 1) level s =
      (elements fuel (level + 1) (c :: t)).map fun r => (atLevel level (.array r.1), r.2) := by
  rw [value, hopen]
  split
  case h_5 rest hrest =>
    obtain ⟨-, rfl⟩ := List.cons.inj hrest
    rw [hitems]
    split
    · rename_i hclose
      exact absurd (List.cons.inj hclose).1 hc
    · cases elements fuel (level + 1) (c :: t) with
      | none => rfl
      | some r => rfl
  case h_7 h _ => exact (h more rfl).elim
  -- The other marks are other characters.
  all_goals
    rename_i hmark
    exact absurd (List.cons.inj hmark).1 (by decide)

/-- After its opening brace and a character that does not close it, an object has its members. -/
theorem value_object (fuel level : Nat) {s more t : List Char} {c : Char}
    (hopen : skipSpace s = '\x7b' :: more) (hmembers : skipSpace more = c :: t) (hc : c ≠ '\x7d') :
    value (fuel + 1) level s =
      (members fuel (level + 1) (c :: t)).map fun r => (atLevel level (objectOf r.1), r.2) := by
  rw [value, hopen]
  split
  case h_6 rest hrest =>
    obtain ⟨-, rfl⟩ := List.cons.inj hrest
    rw [hmembers]
    split
    · rename_i hclose
      exact absurd (List.cons.inj hclose).1 hc
    · cases members fuel (level + 1) (c :: t) with
      | none => rfl
      | some r => rfl
  case h_7 h => exact (h more rfl).elim
  -- The other marks are other characters.
  all_goals
    rename_i hmark
    exact absurd (List.cons.inj hmark).1 (by decide)

/-- A reader with fuel for what is written of a value has fuel for a step. -/
theorem fuel_of_renderAt {level : Nat} {v : Json} (hv : Readable level v) {indent fuel : Nat}
    (hfuel : (renderAt indent v).toList.length ≤ fuel) : ∃ left, fuel = left + 1 := by
  obtain ⟨c, s, htext, -⟩ := exists_renderAt hv indent
  rw [htext, List.length_cons] at hfuel
  exact Nat.exists_eq_add_one.2 (by omega)

/-- An array of values that are read back is read back. -/
theorem readsBack_array {level : Nat} {items : List Json} (depth : level ≤ maxDepth)
    (hitems : ∀ v ∈ items, Readable (level + 1) v ∧ ReadsBack (level + 1) v) :
    ReadsBack level (.array items) := by
  intro indent fuel s rest hfuel hs _
  obtain ⟨fuel, rfl⟩ := fuel_of_renderAt (.array depth fun v hv => (hitems v hv).1) hfuel
  cases items with
  | nil =>
    rw [renderAt, renderItems, toList_bracket_nil] at hs
    rw [value, hs]
    show some (atLevel level (.array []), rest) = _
    rw [atLevel, if_pos depth]
  | cons v items =>
    obtain ⟨c, _, htext, hc, hclose⟩ :=
      exists_renderAt (hitems v List.mem_cons_self).1 (indent + 1)
    rw [renderAt, renderItems] at hs hfuel
    obtain ⟨more, t, hopen, hskip, hinside⟩ := exists_inside rfl rfl htext hc hs
    have hlength := @length_joined_lt "[" "]" '[' ']' rfl rfl indent
      (renderAt (indent + 1) v) (renderItems (indent + 1) items)
    have helements : elements fuel (level + 1) (c :: t) = some (v :: items, rest) :=
      elements_renderItems (indent + 1) hitems (isSpace_newLine indent) (by rw [renderItems]; omega)
        (by rw [renderItems]; exact hinside)
    rw [value_array fuel level hopen hskip hclose, helements, Option.map_some, atLevel,
      if_pos depth]

/-- An object with values that are read back is read back. -/
theorem readsBack_object {level : Nat} {ms : List (String × Json)} (depth : level ≤ maxDepth)
    (hms : ∀ m ∈ ms, Readable (level + 1) m.2 ∧ ReadsBack (level + 1) m.2) :
    ReadsBack level (.object ms) := by
  intro indent fuel s rest hfuel hs _
  obtain ⟨fuel, rfl⟩ := fuel_of_renderAt (.object depth fun m hm => (hms m hm).1) hfuel
  cases ms with
  | nil =>
    rw [renderAt, renderMembers, toList_bracket_nil] at hs
    rw [value, hs]
    show some (atLevel level (.object []), rest) = _
    rw [atLevel, if_pos depth]
  | cons m ms =>
    obtain ⟨name, v⟩ := m
    have htext := toList_member (indent + 1) name v
    rw [renderAt, renderMembers] at hs hfuel
    obtain ⟨more, t, hopen, hskip, hinside⟩ := exists_inside rfl rfl htext (by decide) hs
    have hlength := @length_joined_lt "\x7b" "\x7d" '\x7b' '\x7d' rfl rfl indent
      (quote name ++ ": " ++ renderAt (indent + 1) v) (renderMembers (indent + 1) ms)
    have hmembers : members fuel (level + 1) ('"' :: t) =
        some (((name, v) :: ms).map fun w => (some w.1, w.2), rest) :=
      members_renderMembers (indent + 1) hms (isSpace_newLine indent) (by rw [renderMembers]; omega)
        (by rw [renderMembers]; exact hinside)
    rw [value_object fuel level hopen hskip (by decide), hmembers, Option.map_some, objectOf_named,
      atLevel, if_pos depth]

/-- **A value is read back** at every level at which it can be read. -/
theorem Readable.readsBack {level : Nat} {v : Json} (hv : Readable level v) :
    ReadsBack level v := by
  induction hv with
  | null level =>
    intro indent fuel s rest hfuel hs _
    obtain ⟨fuel, rfl⟩ := fuel_of_renderAt (.null level) hfuel
    rw [renderAt] at hs
    rw [value, hs]
    rfl
  | bool level b =>
    intro indent fuel s rest hfuel hs _
    obtain ⟨fuel, rfl⟩ := fuel_of_renderAt (.bool level b) hfuel
    cases b
    all_goals
      rw [renderAt] at hs
      rw [value, hs]
      rfl
  | @number level n fits =>
    intro indent fuel s rest hfuel hs hrest
    obtain ⟨fuel, rfl⟩ := fuel_of_renderAt (.number level fits) hfuel
    cases n with
    | real x => exact fits.elim
    | whole n =>
      rw [renderAt, Num.render] at hs
      obtain ⟨c, t, htext, hc⟩ := exists_toString n
      rw [value_numeral fuel level (by rw [hs, htext]; rfl) hc, hs, lexNumber_toString fits hrest]
  | text level t =>
    intro indent fuel s rest hfuel hs _
    obtain ⟨fuel, rfl⟩ := fuel_of_renderAt (.text level t) hfuel
    obtain ⟨units, hlex, hunits⟩ := exists_units t.toList rest
    have htext : textOf units = some t := by
      rw [textOf, hunits, Option.map_some, String.ofList_toList]
    rw [renderAt, toList_quote, List.cons_append, List.append_assoc] at hs
    rw [value, hs]
    show (lexText (encodeText t.toList ++ '"' :: rest)).bind _ = _
    rw [hlex, Option.bind_some]
    dsimp only
    rw [htext]
    rfl
  | array depth inside ih => exact readsBack_array depth fun v hv => ⟨inside v hv, ih v hv⟩
  | object depth inside ih => exact readsBack_object depth fun m hm => ⟨inside m hm, ih m hm⟩

/-- **What is written of a value is read as the value,** if all of its parts can be read. -/
theorem parse?_render {v : Json} (hv : Readable 1 v) : parse? v.render = some v := by
  have hstart : skipSpace v.render.toList = v.render.toList ++ [] := by
    obtain ⟨c, s, htext, hc, -⟩ := exists_renderAt hv 0
    rw [List.append_nil, show v.render.toList = c :: s from htext]
    exact skipSpace_cons hc s
  have hvalue : value (2 * v.render.toList.length + 2) 1 v.render.toList = some (v, []) :=
    hv.readsBack 0 (by rw [render]; omega) hstart (by rintro _ ⟨⟩)
  rw [parse?, parseChars?, hvalue]
  rfl

end TrafficBoard.Json
