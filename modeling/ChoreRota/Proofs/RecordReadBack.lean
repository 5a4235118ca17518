import ChoreRota.Proofs.ReadBack

/-!
# Records read back

The members of a written record come one after the other, each at a key of its own. Reading them
leaves every value where it was written, so that a record is read back as soon as each of its fields
is.
-/

namespace ChoreRota.Json

variable {α : Type} {value : α} {json : Json} {depth : Nat} {rest : List Char}
  {slots : List Slot} {member : String × Json} {members : List (String × Json)} {found : Members}

/-! ### Keys -/

def writeMoreMembers (depth : Nat) (members : List (String × Json)) : List Char :=
  members.flatMap fun member =>
    ',' :: (newLine depth ++ (writeString member.1 ++ ':' :: ' ' :: writePretty depth member.2))

theorem writePrettyMembers_cons (depth : Nat) (member : String × Json)
    (members : List (String × Json)) :
    writePrettyMembers depth (member :: members) =
      newLine depth ++ (writeString member.1 ++ ':' :: ' ' :: (writePretty depth member.2 ++
        writeMoreMembers depth members)) := by
  induction members generalizing member with
  | nil => simp [writePrettyMembers, writeMoreMembers]
  | cons next members ih =>
    rw [writePrettyMembers, ih next]
    · simp [writeMoreMembers]
    · simp

theorem length_le_writeMoreMembers (depth : Nat) (members : List (String × Json)) :
    members.length ≤ (writeMoreMembers depth members).length := by
  induction members with
  | nil => exact Nat.zero_le _
  | cons member members ih =>
    simp only [writeMoreMembers, List.flatMap_cons, List.length_append, List.length_cons] at ih ⊢
    omega

theorem endsValue_writeMoreMembers (depth outer : Nat) (members : List (String × Json))
    (rest : List Char) : EndsValue (writeMoreMembers depth members ++ (newLine outer ++ rest)) := by
  cases members with
  | nil => exact endsValue_newLine outer
  | cons member members => exact endsValue_comma

theorem skipSpace_key (depth : Nat) (key : String) (rest : List Char) :
    skipSpace (newLine depth ++ (writeString key ++ rest)) =
      '"' :: (key.toList.flatMap escapeChar ++ '"' :: rest) := by
  have hkey : writeString key ++ rest = '"' :: (key.toList.flatMap escapeChar ++ '"' :: rest) := by
    simp [writeString]
  rw [hkey, skipSpace_newLine depth (by decide)]

theorem nextKey_first (depth : Nat) (key : String) (rest : List Char) :
    nextKey true (newLine depth ++ (writeString key ++ rest)) = .ok (some key, rest) := by
  rw [nextKey, skipSpace_key]
  change (readString (key.toList.flatMap escapeChar ++ '"' :: rest)).map _ = _
  rw [readString_flatMap]
  rfl

theorem nextKey_more (depth : Nat) (key : String) (rest : List Char) :
    nextKey false (',' :: (newLine depth ++ (writeString key ++ rest))) = .ok (some key, rest) := by
  have hcomma : ∀ chars, skipSpace (',' :: chars) = ',' :: chars := fun _ => rfl
  rw [nextKey, hcomma]
  split
  · rename_i heq
    cases heq
  · rename_i heq
    exact absurd (List.cons.inj heq).1 (by decide)
  · rename_i heq
    obtain ⟨rfl, rfl⟩ := List.cons.inj heq
    rw [if_neg Bool.false_ne_true, if_pos rfl, skipSpace_key]
    change (readString (key.toList.flatMap escapeChar ++ '"' :: rest)).map _ = _
    rw [readString_flatMap]
    rfl

theorem nextKey_close (isFirst : Bool) (depth : Nat) (rest : List Char) :
    nextKey isFirst (newLine depth ++ '\x7d' :: rest) = .ok (none, rest) := by
  rw [nextKey, skipSpace_newLine depth (by decide)]
  rfl

/-! ### Members -/

def Members.Holds (found : Members) (member : String × Json) : Prop :=
  ∃ depth rest, EndsValue rest ∧
    found.lookup member.1 = some (.inText (' ' :: (writePretty depth member.2 ++ rest)))

def Slot.Admits (slots : List Slot) (member : String × Json) : Prop :=
  ∃ slot, (slots.find? fun slot => slot.name == member.1) = some slot ∧
    slot.reading.ReadsBack member.2 ()

theorem textMembers_succ {isFirst : Bool} {chars : List Char}
    (hkey : nextKey isFirst chars =
      .ok (some member.1, ':' :: ' ' :: (writePretty depth member.2 ++ rest)))
    (hadmits : Slot.Admits slots member) (hnew : found.lookup member.1 = none)
    (hrest : EndsValue rest) (fuel : Nat) :
    Slot.textMembers slots (fuel + 1) isFirst found chars =
      Slot.textMembers slots fuel false
        ((member.1, .inText (' ' :: (writePretty depth member.2 ++ rest))) :: found) rest := by
  obtain ⟨slot, hslot, hread⟩ := hadmits
  have hcolon : skipColon (':' :: ' ' :: (writePretty depth member.2 ++ rest)) =
      .ok (' ' :: (writePretty depth member.2 ++ rest)) := rfl
  have hvalue := hread depth [' '] rest (by simp [isSpace]) hrest
  rw [List.singleton_append] at hvalue
  simp only [Slot.textMembers, hkey, formed, Except.mapError, bind, Except.bind, hslot, hnew, hcolon,
    hvalue]
  rfl

/-- Reading finds the members besides those found before, and leaves the rest of the text. -/
def Slot.Finds (slots : List Slot) (fuel : Nat) (isFirst : Bool) (found : Members)
    (chars : List Char) (members : List (String × Json)) (rest : List Char) : Prop :=
  ∃ all, textMembers slots fuel isFirst found chars = .ok (all, rest) ∧
    (∀ member ∈ members, all.Holds member) ∧
      ∀ key, key ∉ members.map Prod.fst → all.lookup key = found.lookup key

theorem finds_cons {isFirst : Bool} {fuel : Nat} {chars tail : List Char}
    (hkey : nextKey isFirst chars =
      .ok (some member.1, ':' :: ' ' :: (writePretty depth member.2 ++ tail)))
    (hadmits : Slot.Admits slots member) (hnew : found.lookup member.1 = none)
    (htail : EndsValue tail) (hother : member.1 ∉ members.map Prod.fst)
    (hmore : ∀ found' : Members, (∀ key, key ≠ member.1 → found'.lookup key = found.lookup key) →
      Slot.Finds slots fuel false found' tail members rest) :
    Slot.Finds slots (fuel + 1) isFirst found chars (member :: members) rest := by
  obtain ⟨all, hall, hheld, hkept⟩ := hmore
    ((member.1, .inText (' ' :: (writePretty depth member.2 ++ tail))) :: found) (by
      intro key hkey
      rw [List.lookup_cons, beq_false_of_ne hkey])
  refine ⟨all, ?_, ?_, ?_⟩
  · rw [textMembers_succ hkey hadmits hnew htail]
    exact hall
  · refine List.forall_mem_cons.2 ⟨⟨depth, tail, htail, ?_⟩, hheld⟩
    rw [hkept member.1 hother, List.lookup_cons_self]
  · intro key habsent
    rw [List.map_cons, List.mem_cons, not_or] at habsent
    rw [hkept key habsent.2, List.lookup_cons, beq_false_of_ne habsent.1]

theorem ne_of_mem {key : String} (hkey : key ∉ members.map Prod.fst) :
    ∀ other ∈ members, other.1 ≠ key := by
  rintro other hother rfl
  exact hkey (List.mem_map_of_mem hother)

theorem finds_writeMoreMembers {fuel : Nat}
    (hadmits : ∀ member ∈ members, Slot.Admits slots member)
    (hkeys : (members.map Prod.fst).Nodup)
    (hnew : ∀ member ∈ members, found.lookup member.1 = none) (hfuel : members.length < fuel)
    (depth outer : Nat) (rest : List Char) :
    Slot.Finds slots fuel false found
      (writeMoreMembers depth members ++ (newLine outer ++ '\x7d' :: rest)) members rest := by
  induction members generalizing found fuel with
  | nil =>
    cases fuel with
    | zero => cases hfuel
    | succ fuel =>
      refine ⟨found, ?_, by simp, fun _ _ => rfl⟩
      simp only [writeMoreMembers, List.flatMap_nil, List.nil_append, Slot.textMembers,
        nextKey_close]
      rfl
  | cons member members ih =>
    cases fuel with
    | zero => cases hfuel
    | succ fuel =>
      obtain ⟨hslot, hadmits⟩ := List.forall_mem_cons.1 hadmits
      obtain ⟨hfresh, hnew⟩ := List.forall_mem_cons.1 hnew
      obtain ⟨hkey, hkeys⟩ := List.nodup_cons.1 hkeys
      have hline : writeMoreMembers depth (member :: members) ++ (newLine outer ++ '\x7d' :: rest) =
          ',' :: (newLine depth ++ (writeString member.1 ++ ':' :: ' ' ::
            (writePretty depth member.2 ++
              (writeMoreMembers depth members ++ (newLine outer ++ '\x7d' :: rest))))) := by
        simp [writeMoreMembers]
      rw [hline]
      refine finds_cons (nextKey_more depth member.1 _) hslot hfresh
        (endsValue_writeMoreMembers depth outer members _) hkey fun found' hsame => ?_
      refine ih hadmits hkeys (fun other hother => ?_) (Nat.lt_of_succ_lt_succ hfuel)
      rw [hsame other.1 (ne_of_mem hkey other hother), hnew other hother]

theorem finds_writePrettyMembers {fuel : Nat}
    (hadmits : ∀ member ∈ members, Slot.Admits slots member)
    (hkeys : (members.map Prod.fst).Nodup) (hsome : members ≠ []) (hfuel : members.length < fuel)
    (depth outer : Nat) (rest : List Char) :
    Slot.Finds slots fuel true []
      (writePrettyMembers depth members ++ (newLine outer ++ '\x7d' :: rest)) members rest := by
  cases members with
  | nil => exact absurd rfl hsome
  | cons member members =>
    cases fuel with
    | zero => cases hfuel
    | succ fuel =>
      obtain ⟨hslot, hadmits⟩ := List.forall_mem_cons.1 hadmits
      obtain ⟨hkey, hkeys⟩ := List.nodup_cons.1 hkeys
      have hline : writePrettyMembers depth (member :: members) ++
          (newLine outer ++ '\x7d' :: rest) =
          newLine depth ++ (writeString member.1 ++ ':' :: ' ' :: (writePretty depth member.2 ++
            (writeMoreMembers depth members ++ (newLine outer ++ '\x7d' :: rest)))) := by
        rw [writePrettyMembers_cons]
        simp
      rw [hline]
      refine finds_cons (nextKey_first depth member.1 _) hslot rfl
        (endsValue_writeMoreMembers depth outer members _) hkey fun found' hsame => ?_
      refine finds_writeMoreMembers hadmits hkeys (fun other hother => ?_)
        (Nat.lt_of_succ_lt_succ hfuel) depth outer rest
      rw [hsame other.1 (ne_of_mem hkey other hother)]
      rfl

theorem length_le_writePrettyMembers (depth : Nat) (members : List (String × Json)) :
    members.length ≤ (writePrettyMembers depth members).length := by
  cases members with
  | nil => exact Nat.zero_le _
  | cons member members =>
    have hmore := length_le_writeMoreMembers depth members
    rw [writePrettyMembers_cons]
    simp only [newLine, List.length_append, List.length_cons]
    omega

/-! ### Fields -/

structure RecordField.ReadsBack (field : RecordField α) (member : String × Json) (value : α) :
    Prop where
  name : field.name = member.1
  value : field.reading.ReadsBack member.2 value

structure Slot.ReadsBack (slot : Slot) (member : String × Json) : Prop where
  name : slot.name = member.1
  value : slot.reading.ReadsBack member.2 ()

section Fields

variable {field : RecordField α}

theorem RecordField.ReadsBack.slot (hfield : field.ReadsBack member value) :
    field.slot.ReadsBack member :=
  ⟨hfield.name, hfield.value.map fun _ => ()⟩

theorem RecordField.ReadsBack.get (hfield : field.ReadsBack member value)
    (hfound : found.Holds member) : field.get found = .ok value := by
  obtain ⟨depth, rest, hrest, hlookup⟩ := hfound
  have hvalue := hfield.value depth [' '] rest (by simp [isSpace]) hrest
  rw [List.singleton_append] at hvalue
  rw [RecordField.get, hfield.name, hlookup]
  simp only [Reading.located, hvalue]
  rfl

theorem names_eq_keys (hfields : List.Forall₂ Slot.ReadsBack slots members) :
    slots.map Slot.name = members.map Prod.fst := by
  induction hfields with
  | nil => rfl
  | cons hslot _ ih => rw [List.map_cons, List.map_cons, hslot.name, ih]

theorem admits_of_readsBack (hfields : List.Forall₂ Slot.ReadsBack slots members)
    (hnames : (slots.map Slot.name).Nodup) : ∀ member ∈ members, Slot.Admits slots member := by
  induction hfields with
  | nil => simp
  | @cons slot member slots members hslot hfields ih =>
    obtain ⟨hname, hnames⟩ := List.nodup_cons.1 hnames
    refine List.forall_mem_cons.2 ⟨⟨slot, ?_, hslot.value⟩, fun other hother => ?_⟩
    · rw [List.find?_cons_of_pos (by simp [hslot.name])]
    · obtain ⟨found, hfound, hvalue⟩ := ih hnames other hother
      refine ⟨found, ?_, hvalue⟩
      rw [List.find?_cons_of_neg, hfound]
      intro hsame
      rw [names_eq_keys hfields] at hname
      exact hname (List.mem_map.2 ⟨other, hother, (beq_iff_eq.1 hsame).symm⟩)

theorem checkMissing_eq_ok (hfields : List.Forall₂ Slot.ReadsBack slots members)
    (hheld : ∀ member ∈ members, found.Holds member) : Slot.checkMissing slots found = .ok () := by
  have hnone : (slots.find? fun slot =>
      slot.isRequired && (found.lookup slot.name).isNone) = none := by
    rw [List.find?_eq_none]
    intro slot hslot hmissing
    have hkey : slot.name ∈ members.map Prod.fst := by
      rw [← names_eq_keys hfields]
      exact List.mem_map_of_mem hslot
    obtain ⟨member, hmember, hname⟩ := List.mem_map.1 hkey
    obtain ⟨depth, rest, -, hlookup⟩ := hheld member hmember
    rw [← hname, hlookup] at hmissing
    simp at hmissing
  rw [Slot.checkMissing, hnone]

theorem Reading.ReadsBack.record {name : String} {build : Members → Except DecodeFault α}
    (hfields : List.Forall₂ Slot.ReadsBack slots members) (hsome : members ≠ [])
    (hnames : (slots.map Slot.name).Nodup)
    (hbuild : ∀ found : Members, (∀ member ∈ members, found.Holds member) →
      build found = .ok value) :
    (Reading.record name slots build).ReadsBack (.object members) value := by
  intro depth space rest hspace hrest
  have hadmits := admits_of_readsBack hfields hnames
  have hkeys : (members.map Prod.fst).Nodup := by
    rw [← names_eq_keys hfields]
    exact hnames
  have hlength := length_le_writePrettyMembers (depth + 1) members
  have hline : writePretty depth (.object members) ++ rest =
      '\x7b' :: (writePrettyMembers (depth + 1) members ++ (newLine depth ++ '\x7d' :: rest)) := by
    cases members with
    | nil => exact absurd rfl hsome
    | cons member members =>
      rw [writePretty_object]
      simp
  have hfuel : members.length <
      (writePrettyMembers (depth + 1) members ++ (newLine depth ++ '\x7d' :: rest)).length + 1 := by
    rw [List.length_append]
    omega
  obtain ⟨all, hall, hheld, -⟩ :=
    finds_writePrettyMembers hadmits hkeys hsome hfuel (depth + 1) depth rest
  simp only [Reading.record]
  rw [skipSpace_writePretty hspace, hline]
  simp only [hall, bind, Except.bind, checkMissing_eq_ok hfields hheld, hbuild all hheld]
  rfl

end Fields

theorem decodeText_pretty {reading : Reading α} (hread : reading.ReadsBack json value) :
    decodeText reading json.pretty = .ok value := by
  have hvalue := hread.inPlace 0 endsValue_nil
  rw [List.append_nil] at hvalue
  simp only [decodeText, pretty, String.toList_ofList, hvalue, bind, Except.bind]
  rfl

end ChoreRota.Json
