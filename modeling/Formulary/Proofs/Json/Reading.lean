import Formulary.Proofs.Json.NumberTexts
import Formulary.Proofs.Json.Strings

/-! Reading a JSON text that was written. The text of a value, in either form, is read as one tree, and
as the value itself if each number in it is read back. -/
namespace Formulary.Json

mutual

/-- The tree of a value. -/
def Value.source : Value → Source
  | .null => .null
  | .bool b => .bool b
  | .number n => .number (some n)
  | .string s => .string (some s)
  | .array items => .array (itemSources items)
  | .object fields => .object (fieldSources fields)

def itemSources : List Value → List Source
  | [] => []
  | v :: rest => v.source :: itemSources rest

def fieldSources : List (String × Value) → List (Option String × Source)
  | [] => []
  | (k,v) :: rest => (some k,v.source) :: fieldSources rest

end

mutual

/-- What the text of a value is read as. -/
def Value.spelled : Value → Source
  | .null => .null
  | .bool b => .bool b
  | .number n => n.spelled
  | .string s => .string (some s)
  | .array items => .array (itemsSpelled items)
  | .object fields => .object (fieldsSpelled fields)

def itemsSpelled : List Value → List Source
  | [] => []
  | v :: rest => v.spelled :: itemsSpelled rest

def fieldsSpelled : List (String × Value) → List (Option String × Source)
  | [] => []
  | (k,v) :: rest => (some k,v.spelled) :: fieldsSpelled rest

end

mutual

/-- The numbers that a value holds. -/
def Value.numbers : Value → List Number
  | .number n => [n]
  | .array items => itemNumbers items
  | .object fields => fieldNumbers fields
  | _ => []

def itemNumbers : List Value → List Number
  | [] => []
  | v :: rest => v.numbers ++ itemNumbers rest

def fieldNumbers : List (String × Value) → List Number
  | [] => []
  | (_,v) :: rest => v.numbers ++ fieldNumbers rest

end

mutual

/-- How many arrays and objects stand inside one another. -/
def Value.depth : Value → ℕ
  | .array items => itemsDepth items + 1
  | .object fields => fieldsDepth fields + 1
  | _ => 0

def itemsDepth : List Value → ℕ
  | [] => 0
  | v :: rest => max v.depth (itemsDepth rest)

def fieldsDepth : List (String × Value) → ℕ
  | [] => 0
  | (_,v) :: rest => max v.depth (fieldsDepth rest)

end

mutual

/-- The tree of a value has that value, if there is room for its levels. -/
theorem Value.value?_source : ∀ (v : Value) (room : ℕ), v.depth ≤ room →
    v.source.value? room = some v
  | .null,_,_ => rfl
  | .bool _,_,_ => rfl
  | .number _,_,_ => rfl
  | .string _,_,_ => rfl
  | .array items,room,h => by
    rw [Value.depth] at h
    rw [Value.source,Source.value?,if_neg (by omega),
      itemValues?_itemSources items (room - 1) (by omega)]
    rfl
  | .object fields,room,h => by
    rw [Value.depth] at h
    rw [Value.source,Source.value?,if_neg (by omega),
      fieldValues?_fieldSources fields (room - 1) (by omega)]
    rfl

theorem itemValues?_itemSources : ∀ (items : List Value) (room : ℕ), itemsDepth items ≤ room →
    itemValues? (itemSources items) room = some items
  | [],_,_ => rfl
  | v :: rest,room,h => by
    simp only [itemsDepth,Nat.max_le] at h
    rw [itemSources,itemValues?,Value.value?_source v room h.1,
      itemValues?_itemSources rest room h.2]
    rfl

theorem fieldValues?_fieldSources : ∀ (fields : List (String × Value)) (room : ℕ),
    fieldsDepth fields ≤ room → fieldValues? (fieldSources fields) room = some fields
  | [],_,_ => rfl
  | (k,v) :: rest,room,h => by
    simp only [fieldsDepth,Nat.max_le] at h
    rw [fieldSources,fieldValues?,Value.value?_source v room h.1,
      fieldValues?_fieldSources rest room h.2]
    rfl

end

/-! Space between the parts of a text -/

lemma skipSpace_append {gap : List Char} (h : ∀ c ∈ gap, isSpace c = true) (s : List Char) :
    skipSpace (gap ++ s) = skipSpace s :=
  List.dropWhile_append_of_pos h

lemma isSpace_of_mem_break {form : Form} {level : ℕ} {c : Char} (h : c ∈ form.break level) :
    isSpace c = true := by
  cases form with
  | compact => cases h
  | pretty =>
    rcases List.mem_cons.mp h with rfl | h
    · rfl
    · rw [List.eq_of_mem_replicate h]
      rfl

lemma skipSpace_break (form : Form) (level : ℕ) (s : List Char) :
    skipSpace (form.break level ++ s) = skipSpace s :=
  skipSpace_append (fun _ => isSpace_of_mem_break) s

/-- A colon and the space behind it. -/
lemma colon_eq (form : Form) :
    ∃ gap, form.colon = ':' :: gap ∧ ∀ c ∈ gap, isSpace c = true := by
  cases form
  · exact ⟨[],rfl,by simp⟩
  · exact ⟨[' '],rfl,List.all_eq_true.mp rfl⟩

/-- Space in front of a value is passed over. -/
lemma readValue?_of_skipSpace {s t : List Char} (h : skipSpace s = skipSpace t) (fuel : ℕ) :
    readValue? fuel s = readValue? fuel t := by
  cases fuel with
  | zero => rfl
  | succ fuel => rw [readValue?,readValue?,h]

lemma readMoreItems?_of_skipSpace {s t : List Char} (h : skipSpace s = skipSpace t) (fuel : ℕ) :
    readMoreItems? fuel s = readMoreItems? fuel t := by
  cases fuel with
  | zero => rfl
  | succ fuel => rw [readMoreItems?,readMoreItems?,readValue?_of_skipSpace h]

lemma readMoreFields?_of_skipSpace {s t : List Char} (h : skipSpace s = skipSpace t) (fuel : ℕ) :
    readMoreFields? fuel s = readMoreFields? fuel t := by
  cases fuel with
  | zero => rfl
  | succ fuel => rw [readMoreFields?,readMoreFields?,h]

lemma endsNumber_break_cons (form : Form) (level : ℕ) {c : Char} (h : continuesNumber c = false)
    (s : List Char) : EndsNumber (form.break level ++ c :: s) := by
  cases form
  · exact endsNumber_cons h
  · exact endsNumber_cons rfl

lemma endsNumber_moreItems (form : Form) (items : List Value) (level : ℕ) (rest : List Char) :
    EndsNumber (moreItems form items level ++ rest) := by
  cases items with
  | nil =>
    rw [moreItems,List.append_assoc]
    exact endsNumber_break_cons form level rfl rest
  | cons v items => exact endsNumber_cons rfl

lemma endsNumber_moreFields (form : Form) (fields : List (String × Value)) (level : ℕ)
    (rest : List Char) : EndsNumber (moreFields form fields level ++ rest) := by
  cases fields with
  | nil =>
    rw [moreFields,List.append_assoc]
    exact endsNumber_break_cons form level rfl rest
  | cons f fields => exact endsNumber_cons rfl

/-- A written value begins with neither space nor a closing bracket. -/
lemma Value.head_chars (form : Form) (v : Value) (level : ℕ) :
    ∃ c s, v.chars form level = c :: s ∧ isSpace c = false ∧ c ≠ ']' := by
  cases v with
  | null => exact ⟨_,_,rfl,rfl,by decide⟩
  | bool b => cases b <;> exact ⟨_,_,rfl,rfl,by decide⟩
  | number n =>
    obtain ⟨hne,hin⟩ := n.text_spec
    obtain ⟨c,s,hcs⟩ := List.exists_cons_of_ne_nil hne
    exact ⟨c,s,hcs,isSpace_of_inNumber (hin c (hcs ▸ List.mem_cons_self))⟩
  | string s => exact ⟨_,_,rfl,rfl,by decide⟩
  | array items => cases items <;> exact ⟨_,_,rfl,rfl,by decide⟩
  | object fields => cases fields <;> exact ⟨_,_,rfl,rfl,by decide⟩

/-! Steps of the reading. Twice as much fuel as there are characters is enough. -/

variable {form : Form} {level : ℕ} {v w : Value} {items : List Value}
  {fields : List (String × Value)}

/-- A value is read back in front of anything that does not belong to a number. -/
def Value.Reads (form : Form) (level : ℕ) (v : Value) : Prop :=
  ∀ rest fuel, EndsNumber rest → 2 * (v.chars form level).length ≤ fuel →
    readValue? fuel (v.chars form level ++ rest) = some (v.spelled,rest)

/-- Items are read back behind one that is. -/
def ItemsRead (form : Form) (level : ℕ) (items : List Value) : Prop :=
  ∀ (v : Value) rest fuel, v.Reads form (level + 1) →
    2 * ((v.chars form (level + 1)).length + (moreItems form items level).length) ≤ fuel →
    readMoreItems? fuel (v.chars form (level + 1) ++ (moreItems form items level ++ rest)) =
      some (v.spelled :: itemsSpelled items,rest)

/-- Fields are read back behind one that is. -/
def FieldsRead (form : Form) (level : ℕ) (fields : List (String × Value)) : Prop :=
  ∀ k (v : Value) rest fuel, v.Reads form (level + 1) →
    2 * ((v.chars form (level + 1)).length + (moreFields form fields level).length) ≤ fuel →
    readMoreFields? fuel (quote k.toList ++ (form.colon ++
      (v.chars form (level + 1) ++ (moreFields form fields level ++ rest)))) =
      some ((some k,v.spelled) :: fieldsSpelled fields,rest)

lemma reads_of_readValue? (h : ∀ rest fuel, EndsNumber rest → readValue? (fuel + 1)
    (v.chars form level ++ rest) = some (v.spelled,rest)) : v.Reads form level := by
  intro rest fuel hrest hfuel
  obtain ⟨c,s,hcs,-⟩ := v.head_chars form level
  have hlen : 0 < (v.chars form level).length := by simp [hcs]
  obtain ⟨fuel,rfl⟩ := Nat.exists_eq_add_of_le' (show 1 ≤ fuel by omega)
  exact h rest fuel hrest

lemma length_moreItems_pos (form : Form) (items : List Value) (level : ℕ) :
    0 < (moreItems form items level).length := by
  cases items <;> simp [moreItems]

lemma length_moreFields_pos (form : Form) (fields : List (String × Value)) (level : ℕ) :
    0 < (moreFields form fields level).length := by
  cases fields <;> simp [moreFields]

lemma itemsRead_nil : ItemsRead form level [] := by
  intro v rest fuel hv hfuel
  have hpos := length_moreItems_pos form [] level
  obtain ⟨fuel,rfl⟩ := Nat.exists_eq_add_of_le' (show 1 ≤ fuel by omega)
  rw [readMoreItems?,hv _ fuel (endsNumber_moreItems form [] level rest) (by omega)]
  simp [moreItems,skipSpace_break,skipSpace_cons,isSpace,itemsSpelled]

lemma itemsRead_cons (hw : w.Reads form (level + 1)) (hi : ItemsRead form level items) :
    ItemsRead form level (w :: items) := by
  intro v rest fuel hv hfuel
  have hpos := length_moreItems_pos form (w :: items) level
  obtain ⟨fuel,rfl⟩ := Nat.exists_eq_add_of_le' (show 1 ≤ fuel by omega)
  rw [readMoreItems?,hv _ fuel (endsNumber_moreItems form (w :: items) level rest) (by omega)]
  simp only [moreItems,List.length_append,List.length_cons] at hfuel
  have hmore := hi w rest fuel hw (by omega)
  rw [← readMoreItems?_of_skipSpace (skipSpace_break form (level + 1) _)] at hmore
  simp [moreItems,skipSpace_cons,isSpace,itemsSpelled,hmore]

lemma readValue?_quote (s : List Char) (fuel : ℕ) :
    readValue? (fuel + 1) ('"' :: s) = (readString? s).map fun r => (.string r.1,r.2) := rfl

lemma reads_array_nil : (Value.array []).Reads form level := by
  intro rest fuel _ hfuel
  obtain ⟨fuel,rfl⟩ := Nat.exists_eq_add_of_le' (show 2 ≤ fuel by simp [Value.chars] at hfuel; omega)
  rfl

lemma reads_array_cons (hv : v.Reads form (level + 1)) (hi : ItemsRead form level items) :
    (Value.array (v :: items)).Reads form level := by
  intro rest fuel _ hfuel
  have hpos := length_moreItems_pos form items level
  simp only [Value.chars,List.length_append,List.length_cons] at hfuel
  obtain ⟨fuel,rfl⟩ := Nat.exists_eq_add_of_le' (show 2 ≤ fuel by omega)
  have hmore := hi v rest fuel hv (by omega)
  rw [← readMoreItems?_of_skipSpace (skipSpace_break form (level + 1) _)] at hmore
  obtain ⟨c,s,hcs,hc,hne⟩ := v.head_chars form (level + 1)
  -- the first item is not taken for the closing bracket
  have hitems : readItems? (fuel + 1) (form.break (level + 1) ++ (v.chars form (level + 1) ++
      (moreItems form items level ++ rest))) =
      some (.array (v.spelled :: itemsSpelled items),rest) := by
    rw [readItems?,skipSpace_break,hcs,List.cons_append,skipSpace_cons hc,← List.cons_append,← hcs]
    split
    · simp_all
    · rw [hmore]
      rfl
  simp only [Value.chars,List.cons_append,List.append_assoc]
  exact hitems

/-- What is read behind a name and its value: the other fields, or the end of the object. -/
def behindField (fuel : ℕ) (k : String) (r : Source × List Char) :
    Option (List (Option String × Source) × List Char) :=
  match skipSpace r.2 with
  | ',' :: rest => (readMoreFields? fuel rest).map fun m => ((some k,r.1) :: m.1,m.2)
  | '\x7d' :: rest => some ([(some k,r.1)],rest)
  | _ => none

/-- A name is passed over to its value. -/
lemma readMoreFields?_quote (k : String) (s : List Char) (fuel : ℕ) :
    readMoreFields? (fuel + 1) (quote k.toList ++ (form.colon ++ s)) =
      (readValue? fuel s).bind (behindField fuel k) := by
  obtain ⟨gap,hcolon,hgap⟩ := colon_eq form
  rw [quote,List.cons_append,List.cons_append,List.append_assoc,hcolon,readMoreFields?,
    skipSpace_cons rfl]
  simp only [List.cons_append,List.nil_append,readString?_written,String.ofList_toList,
    Option.bind_eq_bind,Option.bind_some,skipSpace_cons (show isSpace ':' = false from rfl),
    readValue?_of_skipSpace (skipSpace_append hgap s)]
  rfl

lemma fieldsRead_nil : FieldsRead form level [] := by
  intro k v rest fuel hv hfuel
  have hpos := length_moreFields_pos form [] level
  obtain ⟨fuel,rfl⟩ := Nat.exists_eq_add_of_le' (show 1 ≤ fuel by omega)
  rw [readMoreFields?_quote,hv _ fuel (endsNumber_moreFields form [] level rest) (by omega)]
  simp [behindField,moreFields,skipSpace_break,skipSpace_cons,isSpace,fieldsSpelled]

lemma fieldsRead_cons {k : String} (hw : w.Reads form (level + 1))
    (hf : FieldsRead form level fields) : FieldsRead form level ((k,w) :: fields) := by
  intro k' v rest fuel hv hfuel
  have hpos := length_moreFields_pos form ((k,w) :: fields) level
  obtain ⟨fuel,rfl⟩ := Nat.exists_eq_add_of_le' (show 1 ≤ fuel by omega)
  rw [readMoreFields?_quote,hv _ fuel (endsNumber_moreFields form _ level rest) (by omega)]
  simp only [moreFields,List.length_append,List.length_cons] at hfuel
  have hmore := hf k w rest fuel hw (by omega)
  rw [← readMoreFields?_of_skipSpace (skipSpace_break form (level + 1) _)] at hmore
  simp [behindField,moreFields,skipSpace_cons,isSpace,fieldsSpelled,hmore]

lemma reads_object_nil : (Value.object []).Reads form level := by
  intro rest fuel _ hfuel
  obtain ⟨fuel,rfl⟩ := Nat.exists_eq_add_of_le' (show 2 ≤ fuel by simp [Value.chars] at hfuel; omega)
  rfl

lemma reads_object_cons {k : String} (hv : v.Reads form (level + 1))
    (hf : FieldsRead form level fields) : (Value.object ((k,v) :: fields)).Reads form level := by
  intro rest fuel _ hfuel
  simp only [Value.chars,List.length_append,List.length_cons] at hfuel
  obtain ⟨fuel,rfl⟩ := Nat.exists_eq_add_of_le' (show 2 ≤ fuel by omega)
  have hmore := hf k v rest fuel hv (by omega)
  rw [← readMoreFields?_of_skipSpace (skipSpace_break form (level + 1) _)] at hmore
  -- the first name is not taken for the closing brace
  have hfields : readFields? (fuel + 1) (form.break (level + 1) ++ (quote k.toList ++
      (form.colon ++ (v.chars form (level + 1) ++ (moreFields form fields level ++ rest))))) =
      some (.object ((some k,v.spelled) :: fieldsSpelled fields),rest) := by
    rw [readFields?,hmore,skipSpace_break]
    rfl
  simp only [Value.chars,List.cons_append,List.append_assoc]
  exact hfields

mutual

/-- Every value is read from its text. -/
theorem Value.reads (form : Form) : ∀ (v : Value) (level : ℕ), v.Reads form level
  | .null,_ => reads_of_readValue? fun _ _ _ => rfl
  | .bool b,_ => reads_of_readValue? fun _ _ _ => by cases b <;> rfl
  | .number n,_ => reads_of_readValue? fun _ fuel hrest => n.readValue?_text hrest fuel
  | .string s,_ => reads_of_readValue? fun rest fuel _ => by
    rw [Value.chars,quote,List.cons_append,List.cons_append,List.append_assoc,readValue?_quote,
      List.cons_append,List.nil_append,readString?_written,String.ofList_toList]
    rfl
  | .array [],_ => reads_array_nil
  | .array (v :: items),level => reads_array_cons (v.reads form _) (itemsRead form items level)
  | .object [],_ => reads_object_nil
  | .object ((_,v) :: fields),level => reads_object_cons (v.reads form _) (fieldsRead form fields level)

theorem itemsRead (form : Form) : ∀ (items : List Value) (level : ℕ), ItemsRead form level items
  | [],_ => itemsRead_nil
  | w :: items,level => itemsRead_cons (w.reads form _) (itemsRead form items level)

theorem fieldsRead (form : Form) : ∀ (fields : List (String × Value)) (level : ℕ),
    FieldsRead form level fields
  | [],_ => fieldsRead_nil
  | (_,w) :: fields,level => fieldsRead_cons (w.reads form _) (fieldsRead form fields level)

end

/-- The text of a value is one JSON text. -/
theorem Source.read?_text (v : Value) (form : Form) : Source.read? (v.text form) = some v.spelled := by
  have hread := v.reads form 0 [] (2 * (v.chars form 0).length + 1) endsNumber_nil (by omega)
  rw [List.append_nil] at hread
  simp only [Source.read?,Value.text,String.toList_ofList,hread]
  rfl

lemma itemsSpelled_eq_map (items : List Value) : itemsSpelled items = items.map Value.spelled := by
  induction items with
  | nil => rfl
  | cons v items ih => rw [itemsSpelled,ih,List.map_cons]

mutual

/-- If its numbers are read back, the tree is that of the value. -/
theorem Value.spelled_eq : ∀ v : Value, (∀ n ∈ v.numbers, n.ReadsBack) → v.spelled = v.source
  | .null,_ => rfl
  | .bool _,_ => rfl
  | .number n,h => (h n List.mem_cons_self).spelled
  | .string _,_ => rfl
  | .array items,h => congrArg Source.array (itemsSpelled_eq items h)
  | .object fields,h => congrArg Source.object (fieldsSpelled_eq fields h)

theorem itemsSpelled_eq : ∀ items : List Value, (∀ n ∈ itemNumbers items, n.ReadsBack) →
    itemsSpelled items = itemSources items
  | [],_ => rfl
  | v :: rest,h => by
    simp only [itemNumbers,List.mem_append] at h
    rw [itemsSpelled,itemSources,v.spelled_eq fun n hn => h n (.inl hn),
      itemsSpelled_eq rest fun n hn => h n (.inr hn)]

theorem fieldsSpelled_eq : ∀ fields : List (String × Value),
    (∀ n ∈ fieldNumbers fields, n.ReadsBack) → fieldsSpelled fields = fieldSources fields
  | [],_ => rfl
  | (_,v) :: rest,h => by
    simp only [fieldNumbers,List.mem_append] at h
    rw [fieldsSpelled,fieldSources,v.spelled_eq fun n hn => h n (.inl hn),
      fieldsSpelled_eq rest fun n hn => h n (.inr hn)]

end

/-- A text that was written is read back as the tree of its value. -/
theorem read?_text {v : Value} (h : ∀ n ∈ v.numbers, n.ReadsBack) (form : Form) :
    Source.read? (v.text form) = some v.source := by
  rw [Source.read?_text,v.spelled_eq h]

end Formulary.Json
