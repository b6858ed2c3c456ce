import FusedGemm.Proofs.Json.Numerals

/-!
# Values are read as they were written

A value is *proper* if its numbers are and its strings have content (`Json.Proper`).  The text of a
proper value, at any level, is read as that value up to what follows it (`Json.Reads`), by induction
on the value: the items of an array are read one by one, each with the comma and the new line in
front of the next (`Json.readItems_texts`), and so are the members of an object.  A whole text is
read back by `Json.parse?_text`.
-/

namespace FusedGemm

namespace Json

/-! ### Strings -/

theorem hexValue?_hexDigit : ∀ n < 16, hexValue? (hexDigit n) = some n := by decide

/-- A letter after a backslash is read as the character it stands for. -/
theorem readUnits_letter {letter c : Char} (hne : letter ≠ 'u') (hc : unescape? letter = some c)
    (rest : List Char) :
    readUnits ('\\' :: letter :: rest) =
      (readUnits rest).map fun units => (c.toNat :: units.1, units.2) := by
  rw [readUnits.eq_4 letter rest fun _ _ _ _ _ h => absurd h hne, hc]
  cases readUnits rest <;> rfl

/-- An escaped character is read as its code. -/
theorem readUnits_escape (c : Char) (rest : List Char) :
    readUnits (escape c ++ rest) =
      (readUnits rest).map fun units => (c.toNat :: units.1, units.2) := by
  unfold escape
  -- the characters with a letter of their own come first
  iterate 7
    split
    · next h =>
      subst h
      exact readUnits_letter (by decide) rfl rest
  next hquote hslash _ _ _ _ _ =>
  split
  · next hlow =>
    have hvalue : ((0 * 16 + 0) * 16 + c.toNat / 16) * 16 + c.toNat % 16 = c.toNat := by omega
    have hzero : hexValue? '0' = some 0 := rfl
    simp only [List.cons_append, List.nil_append, readUnits.eq_3, hzero,
      hexValue?_hexDigit (c.toNat / 16) (by omega), hexValue?_hexDigit (c.toNat % 16) (by omega),
      Option.bind_eq_bind, Option.bind_some, hvalue]
    cases readUnits rest <;> rfl
  · next hhigh =>
    show readUnits (c :: rest) = _
    rw [readUnits.eq_5 c rest hquote (fun _ _ _ _ _ h => absurd h hslash)
      (fun _ _ h => absurd h hslash), if_neg (by simp [hhigh, hslash])]
    cases readUnits rest <;> rfl

/-- A quoted string is read as the codes of its characters. -/
theorem readUnits_flatMap_escape (cs rest : List Char) :
    readUnits (cs.flatMap escape ++ '"' :: rest) = some (cs.map Char.toNat, rest) := by
  induction cs with
  | nil => exact readUnits.eq_2 rest
  | cons c cs ih =>
    rw [List.flatMap_cons, List.append_assoc, readUnits_escape, ih]
    rfl

/-- No character is half of a code point. -/
theorem isHalf_toNat (c : Char) : isHighHalf c.toNat = false ∧ isLowHalf c.toNat = false := by
  have hvalid : c.toNat < 0xd800 ∨ 0xdfff < c.toNat ∧ c.toNat < 0x110000 := c.valid
  constructor
  · simp only [isHighHalf, Bool.and_eq_false_iff, decide_eq_false_iff_not]
    omega
  · simp only [isLowHalf, Bool.and_eq_false_iff, decide_eq_false_iff_not]
    omega

theorem joinUnits_map_toNat (cs : List Char) : joinUnits (cs.map Char.toNat) = some cs := by
  induction cs with
  | nil => rfl
  | cons c cs ih =>
    obtain ⟨hhigh, hlow⟩ := isHalf_toNat c
    cases cs with
    | nil => simp [joinUnits, hhigh, hlow, Char.ofNat_toNat]
    | cons d ds =>
      rw [List.map_cons] at ih
      simp [joinUnits, hhigh, hlow, Char.ofNat_toNat, ih]

/-- The characters of a quoted string after its opening quote. -/
def quotedText (s : String) : List Char := s.toList.flatMap escape ++ ['"']

theorem toList_quote (s : String) : (quote s).toList = '"' :: quotedText s := by
  simp [quote, quotedText]

/-- A quoted string is read as it was written. -/
theorem readString_quotedText (s : String) (rest : List Char) :
    readString (quotedText s ++ rest) = some (some s, rest) := by
  unfold readString quotedText
  rw [List.append_assoc, List.singleton_append, readUnits_flatMap_escape]
  simp [joinUnits_map_toNat, String.ofList_toList]

/-! ### Proper values -/

/-- The numbers of a value are proper and its strings have content. -/
inductive Proper : Json → Prop where
  | null : Proper .null
  | bool (b : Bool) : Proper (.bool b)
  | number {n : Numeral} (h : n.Proper) : Proper (.number n)
  | string (s : String) : Proper (.string (some s))
  | array {items : List Json} (h : ∀ v ∈ items, Proper v) : Proper (.array items)
  | object {members : List (String × Json)} (h : ∀ member ∈ members, Proper member.2) :
      Proper (.object (members.map fun member => (some member.1, member.2)))

/-! ### Blanks and separators -/

/-- There is nothing but blanks. -/
def Blank (cs : List Char) : Prop := ∀ c ∈ cs, isBlank c = true

theorem blank_nil : Blank [] := fun _ h => nomatch h

theorem skipBlanks_append {blanks : List Char} (h : Blank blanks) (cs : List Char) :
    skipBlanks (blanks ++ cs) = skipBlanks cs :=
  List.dropWhile_append_of_pos h

theorem skipBlanks_cons {c : Char} (h : isBlank c = false) (cs : List Char) :
    skipBlanks (c :: cs) = c :: cs :=
  List.dropWhile_cons_of_neg (by simp [h])

theorem toList_newLine (level : Nat) :
    (newLine level).toList = '\n' :: List.replicate (2 * level) ' ' := by
  have hpush : ∀ n, ("".pushn ' ' n).toList = List.replicate n ' ' := by
    intro n
    induction n with
    | zero => rfl
    | succ n ih =>
      rw [String.pushn_eq_repeat_push] at ih ⊢
      rw [Nat.repeat, String.toList_push, ih, List.replicate_succ']
  rw [newLine, String.toList_append, hpush]
  rfl

theorem blank_newLine (level : Nat) : Blank (newLine level).toList := by
  rw [toList_newLine]
  intro c hc
  rcases List.mem_cons.mp hc with rfl | hc
  · rfl
  · rw [(List.mem_replicate.mp hc).2]
    rfl

theorem follows_newLine (level : Nat) (rest : List Char) :
    Follows ((newLine level).toList ++ rest) := by
  rw [toList_newLine]
  intro c hc
  exact Or.inr (Option.some.inj hc).symm

/-- The texts after the first one, each on its line after a comma. -/
def moreTexts (level : Nat) (texts : List String) : List Char :=
  texts.flatMap fun text => ',' :: ((newLine level).toList ++ text.toList)

theorem moreTexts_cons (level : Nat) (text : String) (texts : List String) :
    moreTexts level (text :: texts) =
      ',' :: ((newLine level).toList ++ (text.toList ++ moreTexts level texts)) := by
  simp [moreTexts]

theorem follows_comma (cs : List Char) : Follows (',' :: cs) :=
  fun _ hc => Or.inl (Option.some.inj hc).symm

theorem toList_intercalate_cons (text : String) (texts : List String) :
    (",".intercalate (text :: texts)).toList =
      text.toList ++ texts.flatMap fun text => ',' :: text.toList := by
  induction texts generalizing text with
  | nil => simp [String.intercalate_singleton]
  | cons next texts ih =>
    rw [String.intercalate_cons_cons, String.toList_append, ih]
    simp

theorem toList_block_cons (left right : String) (level : Nat) (text : String)
    (texts : List String) :
    (block left right level (text :: texts)).toList =
      left.toList ++ ((newLine (level + 1)).toList ++ (text.toList ++
        (moreTexts (level + 1) texts ++ ((newLine level).toList ++ right.toList)))) := by
  rw [block, if_neg (by simp), String.toList_append, String.toList_append, String.toList_append,
    List.map_cons, toList_intercalate_cons, String.toList_append]
  simp [moreTexts, List.flatMap_map, String.toList_append]

theorem itemTexts_eq (level : Nat) (items : List Json) :
    itemTexts level items = items.map (textAt level) := by
  induction items with
  | nil => simp [itemTexts]
  | cons v vs ih => simp [itemTexts, ih]

/-- The text of a member. -/
def memberText (level : Nat) (member : String × Json) : String :=
  quote member.1 ++ ": " ++ textAt level member.2

theorem memberTexts_eq (level : Nat) (members : List (String × Json)) :
    memberTexts level (members.map fun member => (some member.1, member.2)) =
      members.map (memberText level) := by
  induction members with
  | nil => simp [memberTexts]
  | cons member members ih => simp [memberTexts, memberText, ih]

/-! ### Reading values -/

/-- The text of a value is read as the value. -/
def Reads (v : Json) : Prop := ∀ (level fuel : Nat) {blanks rest : List Char}, Blank blanks →
  Follows rest → (textAt level v).toList.length ≤ fuel →
    readValue fuel (blanks ++ ((textAt level v).toList ++ rest)) = some (v, rest)

/-- The first character of a number. -/
theorem ne_of_digit {c d : Char} (hc : c = '-' ∨ c.isDigit = true) (hminus : d ≠ '-')
    (hdigit : d.isDigit = false) : c ≠ d := by
  rintro rfl
  rcases hc with hc | hc
  · exact hminus hc
  · rw [hdigit] at hc
    cases hc

theorem isBlank_of_digit {c : Char} (hc : c = '-' ∨ c.isDigit = true) : isBlank c = false := by
  simp only [isBlank, Bool.or_eq_false_iff, beq_eq_false_iff_ne]
  exact ⟨⟨⟨ne_of_digit hc (by decide) rfl, ne_of_digit hc (by decide) rfl⟩,
    ne_of_digit hc (by decide) rfl⟩, ne_of_digit hc (by decide) rfl⟩

/-- A minus or a digit starts a number. -/
theorem readValue_of_digit {c : Char} (hc : c = '-' ∨ c.isDigit = true) (fuel : Nat)
    {blanks : List Char} (hblanks : Blank blanks) (cs : List Char) :
    readValue (fuel + 1) (blanks ++ c :: cs) =
      (readNumeral (c :: cs)).map fun number => (.number number.1, number.2) := by
  unfold readValue
  rw [skipBlanks_append hblanks, skipBlanks_cons (isBlank_of_digit hc)]
  split
  iterate 6
    next heq => exact absurd (List.cons.inj heq).1 (ne_of_digit hc (by decide) rfl)
  cases readNumeral (c :: cs) <;> rfl

/-- The text of a proper value starts with what is neither blank nor a closing bracket. -/
theorem Proper.head_textAt {v : Json} (h : v.Proper) (level : Nat) :
    ∃ c cs, (textAt level v).toList = c :: cs ∧ isBlank c = false ∧ c ≠ ']' := by
  have hblock : ∀ (left : Char) (right : String) (texts : List String), ∃ cs,
      (block (String.singleton left) right level texts).toList = left :: cs := by
    intro left right texts
    cases texts with
    | nil => exact ⟨right.toList, by simp [block, String.toList_append, String.toList_singleton]⟩
    | cons text texts =>
      rw [toList_block_cons, String.toList_singleton]
      exact ⟨_, rfl⟩
  cases h with
  | null => exact ⟨'n', ['u', 'l', 'l'], by simp [textAt], rfl, by decide⟩
  | bool b =>
    cases b with
    | true => exact ⟨'t', ['r', 'u', 'e'], by simp [textAt], rfl, by decide⟩
    | false => exact ⟨'f', ['a', 'l', 's', 'e'], by simp [textAt], rfl, by decide⟩
  | @number n h =>
    obtain ⟨c, cs, htext, hc⟩ := head?_text h []
    rw [List.append_nil] at htext
    exact ⟨c, cs, htext, isBlank_of_digit hc, ne_of_digit hc (by decide) rfl⟩
  | string s => exact ⟨'"', _, toList_quote s, rfl, by decide⟩
  | @array items _ =>
    obtain ⟨cs, hcs⟩ := hblock '[' "]" (itemTexts (level + 1) items)
    exact ⟨'[', cs, by rw [textAt]; exact hcs, rfl, by decide⟩
  | @object members _ =>
    obtain ⟨cs, hcs⟩ := hblock '\x7b' "\x7d" (memberTexts (level + 1)
      (members.map fun member => (some member.1, member.2)))
    exact ⟨'\x7b', cs, by rw [textAt]; exact hcs, rfl, by decide⟩

/-- A text that is not empty leaves some fuel. -/
theorem Proper.exists_fuel {v : Json} (h : v.Proper) {level fuel : Nat}
    (hfuel : (textAt level v).toList.length ≤ fuel) : ∃ m, fuel = m + 1 := by
  obtain ⟨c, cs, htext, -, -⟩ := h.head_textAt level
  rw [htext, List.length_cons] at hfuel
  exact ⟨fuel - 1, by omega⟩

variable {rest closing blanks : List Char}

/-- Items are read up to the closing bracket. -/
theorem readItems_texts (level : Nat) (hfollows : Follows closing)
    (hclosing : skipBlanks closing = ']' :: rest) (v : Json) (vs : List Json)
    (hreads : ∀ w ∈ v :: vs, Reads w) (fuel : Nat) (hblanks : Blank blanks)
    (hfuel : (textAt level v).toList.length + (moreTexts level (vs.map (textAt level))).length <
      fuel) :
    readItems fuel (blanks ++ ((textAt level v).toList ++
      (moreTexts level (vs.map (textAt level)) ++ closing))) = some (v :: vs, rest) := by
  induction vs generalizing v fuel blanks with
  | nil =>
    obtain ⟨fuel, rfl⟩ : ∃ m, fuel = m + 1 := ⟨fuel - 1, by omega⟩
    have hv := hreads v List.mem_cons_self level fuel hblanks hfollows (by omega)
    rw [List.map_nil, moreTexts, List.flatMap_nil, List.nil_append, readItems]
    simp only [hv, Option.bind_eq_bind, Option.bind_some, hclosing]
    rfl
  | cons w ws ih =>
    obtain ⟨fuel, rfl⟩ : ∃ m, fuel = m + 1 := ⟨fuel - 1, by omega⟩
    rw [List.map_cons, moreTexts_cons] at hfuel ⊢
    rw [List.length_cons, List.length_append, List.length_append] at hfuel
    have hv := hreads v List.mem_cons_self level fuel hblanks (follows_comma
      ((newLine level).toList ++ ((textAt level w).toList ++
        (moreTexts level (ws.map (textAt level)) ++ closing)))) (by omega)
    have hrest := ih w (fun u hu => hreads u (List.mem_cons_of_mem _ hu)) fuel (blank_newLine level)
      (by omega)
    rw [readItems]
    simp only [List.cons_append, List.append_assoc, hv, hrest, Option.bind_eq_bind,
      Option.bind_some, skipBlanks_cons (c := ',') rfl]
    rfl

/-- Members are read up to the closing brace. -/
theorem readMembers_texts (level : Nat) (hfollows : Follows closing)
    (hclosing : skipBlanks closing = '\x7d' :: rest) (m : String × Json)
    (ms : List (String × Json)) (hreads : ∀ n ∈ m :: ms, Reads n.2) (fuel : Nat)
    (hblanks : Blank blanks)
    (hfuel : (memberText level m).toList.length +
      (moreTexts level (ms.map (memberText level))).length < fuel) :
    readMembers fuel (blanks ++ ((memberText level m).toList ++
      (moreTexts level (ms.map (memberText level)) ++ closing))) =
        some ((m :: ms).map fun n => (some n.1, n.2), rest) := by
  have hblank : Blank [' '] := by
    intro c hc
    rw [List.mem_singleton.mp hc]
    rfl
  have htext : ∀ n : String × Json, (memberText level n).toList =
      '"' :: (quotedText n.1 ++ (':' :: ([' '] ++ (textAt level n.2).toList))) := by
    intro n
    simp [memberText, toList_quote]
  induction ms generalizing m fuel blanks with
  | nil =>
    obtain ⟨fuel, rfl⟩ : ∃ k, fuel = k + 1 := ⟨fuel - 1, by omega⟩
    have hlength := congrArg List.length (htext m)
    simp only [List.length_cons, List.length_append] at hlength
    have hv := hreads m List.mem_cons_self level fuel hblank hfollows (by omega)
    rw [List.map_nil, moreTexts, List.flatMap_nil, List.nil_append, readMembers,
      skipBlanks_append hblanks, htext]
    simp only [List.cons_append, List.append_assoc, skipBlanks_cons (c := '"') rfl,
      skipBlanks_cons (c := ':') rfl, readString_quotedText, Option.bind_eq_bind,
      Option.bind_some] at hv ⊢
    simp only [List.nil_append] at hv ⊢
    simp only [hv, Option.bind_some, hclosing]
    rfl
  | cons n ns ih =>
    obtain ⟨fuel, rfl⟩ : ∃ k, fuel = k + 1 := ⟨fuel - 1, by omega⟩
    have hlength := congrArg List.length (htext m)
    simp only [List.length_cons, List.length_append] at hlength
    rw [List.map_cons, moreTexts_cons] at hfuel ⊢
    rw [List.length_cons, List.length_append, List.length_append] at hfuel
    have hv := hreads m List.mem_cons_self level fuel hblank (follows_comma
      ((newLine level).toList ++ ((memberText level n).toList ++
        (moreTexts level (ns.map (memberText level)) ++ closing)))) (by omega)
    have hrest := ih n (fun u hu => hreads u (List.mem_cons_of_mem _ hu)) fuel (blank_newLine level)
      (by omega)
    rw [readMembers, skipBlanks_append hblanks, htext m]
    simp only [List.cons_append, List.nil_append, List.append_assoc, skipBlanks_cons (c := '"') rfl,
      skipBlanks_cons (c := ':') rfl, readString_quotedText, Option.bind_eq_bind,
      Option.bind_some] at hv hrest ⊢
    simp only [hv, hrest, Option.bind_some, skipBlanks_cons (c := ',') rfl]
    rfl

/-- An opening bracket starts an array, which is not empty if no closing one follows. -/
theorem readValue_array {c : Char} (hc : isBlank c = false) (hne : c ≠ ']') (fuel : Nat)
    (hblanks : Blank blanks) (level : Nat) (cs : List Char) :
    readValue (fuel + 1) (blanks ++ '[' :: ((newLine level).toList ++ c :: cs)) =
      (readItems fuel (c :: cs)).map fun items => (.array items.1, items.2) := by
  rw [readValue, skipBlanks_append hblanks, skipBlanks_cons rfl]
  simp only [skipBlanks_append (blank_newLine level), skipBlanks_cons hc]
  split
  · next heq => exact absurd (List.cons.inj heq).1 hne
  · cases readItems fuel (c :: cs) <;> rfl

/-- An opening brace starts an object, which is not empty if a key follows. -/
theorem readValue_object (fuel : Nat) (hblanks : Blank blanks) (level : Nat) (cs : List Char) :
    readValue (fuel + 1) (blanks ++ '\x7b' :: ((newLine level).toList ++ '"' :: cs)) =
      (readMembers fuel ('"' :: cs)).map fun members => (.object members.1, members.2) := by
  rw [readValue, skipBlanks_append hblanks, skipBlanks_cons rfl]
  simp only [skipBlanks_append (blank_newLine level), skipBlanks_cons (c := '"') rfl]
  show ((readMembers fuel ('"' :: cs)).bind fun members => some (object members.1, members.2)) = _
  cases readMembers fuel ('"' :: cs) <;> rfl

/-- The text of an array of values that are read is read as the array. -/
theorem reads_array {items : List Json} (hitems : ∀ v ∈ items, v.Proper)
    (hreads : ∀ v ∈ items, Reads v) : Reads (.array items) := by
  intro level fuel blanks rest hblanks _ hfuel
  obtain ⟨fuel, rfl⟩ := (Proper.array hitems).exists_fuel hfuel
  rw [textAt, itemTexts_eq] at hfuel ⊢
  cases items with
  | nil =>
    have htext : (block "[" "]" level ([].map (textAt (level + 1)))).toList = ['[', ']'] := by
      simp [block]
    rw [htext, readValue, skipBlanks_append hblanks]
    rfl
  | cons v vs =>
    obtain ⟨c, cs, hhead, hblank, hbracket⟩ :=
      (hitems v List.mem_cons_self).head_textAt (level + 1)
    rw [List.map_cons, toList_block_cons] at hfuel ⊢
    have hread := readItems_texts (level + 1) (follows_newLine level (']' :: rest))
      ((skipBlanks_append (blank_newLine level) _).trans (skipBlanks_cons rfl rest)) v vs hreads fuel
      blank_nil (by simp at hfuel ⊢; omega)
    rw [hhead] at hread ⊢
    have hstart := readValue_array hblank hbracket fuel hblanks (level + 1) (cs ++
      (moreTexts (level + 1) (vs.map (textAt (level + 1))) ++ ((newLine level).toList ++
        ']' :: rest)))
    rw [List.nil_append, List.cons_append] at hread
    rw [hread] at hstart
    simpa using hstart

/-- The text of an object whose values are read is read as the object. -/
theorem reads_object {members : List (String × Json)} (hmembers : ∀ m ∈ members, m.2.Proper)
    (hreads : ∀ m ∈ members, Reads m.2) :
    Reads (.object (members.map fun member => (some member.1, member.2))) := by
  intro level fuel blanks rest hblanks _ hfuel
  obtain ⟨fuel, rfl⟩ := (Proper.object hmembers).exists_fuel hfuel
  rw [textAt, memberTexts_eq] at hfuel ⊢
  cases members with
  | nil =>
    have htext : (block "\x7b" "\x7d" level ([].map (memberText (level + 1)))).toList =
        ['\x7b', '\x7d'] := by
      simp [block]
    rw [htext, readValue, skipBlanks_append hblanks]
    rfl
  | cons m ms =>
    rw [List.map_cons, toList_block_cons] at hfuel ⊢
    have hread := readMembers_texts (level + 1) (follows_newLine level ('\x7d' :: rest))
      ((skipBlanks_append (blank_newLine level) _).trans (skipBlanks_cons rfl rest)) m ms hreads fuel
      blank_nil (by simp at hfuel ⊢; omega)
    have hhead : (memberText (level + 1) m).toList =
        '"' :: (quotedText m.1 ++ (": " ++ textAt (level + 1) m.2).toList) := by
      simp [memberText, toList_quote]
    rw [hhead] at hread ⊢
    have hstart := readValue_object fuel hblanks (level + 1) ((quotedText m.1 ++
      (": " ++ textAt (level + 1) m.2).toList) ++ (moreTexts (level + 1)
        (ms.map (memberText (level + 1))) ++ ((newLine level).toList ++ '\x7d' :: rest)))
    rw [List.nil_append, List.cons_append] at hread
    rw [hread] at hstart
    simpa using hstart

/-- The text of a proper value is read as the value. -/
theorem Proper.reads {v : Json} (h : v.Proper) : Reads v := by
  induction h with
  | null =>
    intro level fuel blanks rest hblanks _ hfuel
    obtain ⟨fuel, rfl⟩ := Proper.null.exists_fuel hfuel
    have htext : (textAt level .null).toList = ['n', 'u', 'l', 'l'] := by simp [textAt]
    rw [htext, readValue, skipBlanks_append hblanks]
    rfl
  | bool b =>
    intro level fuel blanks rest hblanks _ hfuel
    obtain ⟨fuel, rfl⟩ := (Proper.bool b).exists_fuel hfuel
    have htext : (textAt level (.bool b)).toList =
        if b then ['t', 'r', 'u', 'e'] else ['f', 'a', 'l', 's', 'e'] := by
      cases b <;> simp [textAt]
    rw [htext, readValue, skipBlanks_append hblanks]
    cases b <;> rfl
  | @number n hn =>
    intro level fuel blanks rest hblanks hrest hfuel
    obtain ⟨fuel, rfl⟩ := (Proper.number hn).exists_fuel hfuel
    obtain ⟨c, cs, htext, hc⟩ := head?_text hn rest
    rw [textAt, htext, readValue_of_digit hc fuel hblanks, ← htext, readNumeral_text hn hrest]
    rfl
  | string s =>
    intro level fuel blanks rest hblanks _ hfuel
    obtain ⟨fuel, rfl⟩ := (Proper.string s).exists_fuel hfuel
    have htext : (textAt level (.string (some s))).toList = '"' :: quotedText s := by
      rw [textAt, Option.getD_some, toList_quote]
    rw [htext, readValue, skipBlanks_append hblanks, List.cons_append, skipBlanks_cons rfl]
    simp only [readString_quotedText, Option.bind_eq_bind, Option.bind_some]
    rfl
  | array hitems ih => exact reads_array hitems ih
  | object hmembers ih => exact reads_object hmembers ih

/-- **The text of a proper value is read back.** -/
theorem parse?_text {v : Json} (h : v.Proper) : parse? v.text = some v := by
  have hread : readValue (v.text.toList.length + 1) ([] ++ (v.text.toList ++ [])) = some (v, []) :=
    h.reads 0 _ blank_nil (fun _ hc => nomatch hc) (Nat.le_succ _)
  rw [List.nil_append, List.append_nil] at hread
  unfold parse?
  simp only [text] at hread ⊢
  rw [hread]
  rfl

end Json

end FusedGemm
