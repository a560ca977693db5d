import Mathlib.Data.List.Nodup
import ScopedMachine.Proofs.Run
import ScopedMachine.Proofs.Timestamps
import ScopedMachine.Wire.Codec

/-!
# What is written reads back

Every type with a written form is read back from it as it was, with one exception: of an optional
value that may be any structured value, a null that is there is written as the absence of a value
is, and is read as that.

A structure is read from its fields in whatever order they are given. `ReadsFields` says what each
field is read as; that each given field passes its check and that the structure is built from them
both follow from it.
-/

namespace ScopedMachine

open Wire

/-! ## Identifiers -/

namespace Uuid

theorem digit?_digitChar (d : Fin 16) : digit? (digitChar d) = some d := by
  revert d
  decide

theorem ofDigits?_map (u : Uuid) : ofDigits? (u.digits.map digitChar) = some u := by
  have hread (ds : List (Fin 16)) : (ds.map digitChar).mapM digit? = some ds := by
    induction ds with
    | nil => rfl
    | cons d ds ih => simp [digit?_digitChar, ih]
  simp [ofDigits?, hread, u.length_eq]

/-- Five groups of digits are found between the hyphens. -/
theorem ofHyphenated?_groups {a b c d e : List Char} (ha : a.length = 8) (hb : b.length = 4)
    (hc : c.length = 4) (hd : d.length = 4) (he : e.length = 12) :
    ofHyphenated? (a ++ '-' :: b ++ '-' :: c ++ '-' :: d ++ '-' :: e) =
      ofDigits? (a ++ b ++ c ++ d ++ e) := by
  simp [ofHyphenated?, List.drop_append, List.drop_eq_nil_of_le, ha, hb, hc, hd,
    he]

theorem ofString?_toString (u : Uuid) : ofString? u.toString = some u := by
  have hlen : (u.digits.map digitChar).length = 32 := by rw [List.length_map, u.length_eq]
  have hread := ofDigits?_map u
  simp only [toString, ofString?, String.toList_ofList]
  generalize u.digits.map digitChar = cs at hlen hread
  have hnext (n k : Nat) : (cs.drop n).take k ++ cs.drop (n + k) = cs.drop n := by
    rw [← List.drop_drop, List.take_append_drop]
  have hjoin : cs.take 8 ++ (cs.drop 8).take 4 ++ (cs.drop 12).take 4 ++ (cs.drop 16).take 4 ++
      cs.drop 20 = cs := by
    simp only [List.append_assoc, hnext 16 4, hnext 12 4, hnext 8 4, List.take_append_drop]
  have hgroups : ofHyphenated? (cs.take 8 ++ '-' :: (cs.drop 8).take 4 ++
      '-' :: (cs.drop 12).take 4 ++ '-' :: (cs.drop 16).take 4 ++ '-' :: cs.drop 20) = some u := by
    rw [ofHyphenated?_groups (by simp [hlen]) (by simp [hlen]) (by simp [hlen]) (by simp [hlen])
      (by simp [hlen]), hjoin, hread]
  rw [if_neg (by simp [hlen]), if_pos (by simp [hlen]), hgroups]

end Uuid

/-! ## Fields -/

namespace Value

variable {fields fields' : List (String × Value)} {key : String} {v : Value}

theorem mem_of_field? (h : field? key fields = some v) : (key, v) ∈ fields := by
  obtain ⟨⟨k, u⟩, hfind, rfl⟩ := Option.map_eq_some_iff.mp h
  have hkey : k = key := by simpa using List.find?_some hfind
  rw [← hkey]
  exact List.mem_reverse.mp (List.mem_of_find?_eq_some hfind)

/-- With no key given twice, a field is found wherever it stands. -/
theorem field?_eq_some_iff (hkeys : (fields.map Prod.fst).Nodup) :
    field? key fields = some v ↔ (key, v) ∈ fields := by
  refine ⟨mem_of_field?, fun hmem => ?_⟩
  cases hfound : field? key fields with
  | none =>
    have hall := List.find?_eq_none.mp (Option.map_eq_none_iff.mp hfound)
    exact absurd (by simp) (hall (key, v) (List.mem_reverse.mpr hmem))
  | some u =>
    have heq := List.inj_on_of_nodup_map hkeys (mem_of_field? hfound) hmem rfl
    rw [(Prod.mk.inj heq).2]

theorem field?_perm (h : fields.Perm fields') (hkeys : (fields'.map Prod.fst).Nodup) :
    field? key fields = field? key fields' := by
  refine Option.ext fun v => ?_
  rw [field?_eq_some_iff ((h.map Prod.fst).nodup_iff.mpr hkeys), field?_eq_some_iff hkeys,
    h.mem_iff]

end Value

namespace Wire

variable {α β : Type}

namespace Decoder

theorem check_of_ok {d : Decoder α} {v : Value} {a : α} (h : d v = .ok a) :
    d.check v = .ok () := by
  rw [check, h]
  rfl

@[simp] theorem string_string (s : String) : Decoder.string (.string s) = .ok s := rfl

@[simp] theorem check_string (s : String) : Decoder.string.check (.string s) = .ok () := rfl

@[simp] theorem bool_bool (b : Bool) : Decoder.bool (.bool b) = .ok b := rfl

@[simp] theorem check_bool (b : Bool) : Decoder.bool.check (.bool b) = .ok () := rfl

@[simp] theorem check_any (v : Value) : Decoder.any.check v = .ok () := rfl

theorem word_encodeNat (expected : String) {n : Nat} (h : n < 2 ^ 64) :
    word expected (encodeNat n) = .ok n := by
  have hfits : 0 ≤ (n : Int) ∧ (n : Int) < 18446744073709551616 := by omega
  simp [word, encodeNat, hfits]

theorem list_map {d : Decoder α} {encode : α → Value} (h : ∀ a, d (encode a) = .ok a)
    (xs : List α) : d.list (.array (xs.map encode)) = .ok xs := by
  induction xs with
  | nil => rfl
  | cons x xs ih =>
    simp only [list, List.map_cons, List.mapM_cons, h] at ih ⊢
    rw [ih]
    rfl

theorem list_encodeStrings (xs : List String) :
    Decoder.string.list (encodeStrings xs) = .ok xs :=
  list_map string_string xs

/-- A value that may be absent is told from an absent one if it is never written as null. -/
theorem nullable_encodeOption {d : Decoder α} {encode : α → Value}
    (h : ∀ a, d (encode a) = .ok a) (hnull : ∀ a, encode a ≠ .null) (a : Option α) :
    d.nullable (encodeOption encode a) = .ok a := by
  cases a with
  | none => rfl
  | some a =>
    have hd := h a
    have hne := hnull a
    simp only [encodeOption]
    cases hv : encode a with
    | null => exact absurd hv hne
    | _ => rw [hv] at hd; simp only [nullable, hd]; rfl

/-- A structure is read once each given field passes its check and the fields make it up. -/
theorem structure_object {name : String} {fields : List (String × Decoder Unit)}
    {build : Fields → Except DecodeError α} {given : List (String × Value)} {a : α}
    (hgiven : ∀ f ∈ given, ∀ d, fields.lookup f.1 = some d → d f.2 = .ok ())
    (hbuild : build (.named given) = .ok a) :
    Decoder.structure name fields build (.object given) = .ok a := by
  have hall : (given.forM fun f => (fields.lookup f.1).elim (.ok ()) fun d => d f.2) =
      (.ok () : Except DecodeError Unit) := by
    clear hbuild
    induction given with
    | nil => rfl
    | cons f given ih =>
      have hf : ((fields.lookup f.1).elim (.ok ()) fun d => d f.2) = .ok () := by
        cases hd : fields.lookup f.1 with
        | none => rfl
        | some d => exact hgiven f (by simp) d hd
      rw [List.forM_eq_forM, List.forM_cons, hf]
      exact ih fun g hg => hgiven g (List.mem_cons_of_mem f hg)
  rw [Decoder.structure, hall]
  exact hbuild

end Decoder

namespace Fields

variable {given : List (String × Value)} {name : String} {d : Decoder α} {v : Value} {a : α}

theorem required_named (place : Nat) (hgiven : Value.field? name given = some v)
    (hd : d v = .ok a) : required place name d (.named given) = .ok a := by
  simp [required, get?, hgiven, hd]

theorem optional_named (place : Nat) {a : Option α} (hgiven : Value.field? name given = some v)
    (hd : d.nullable v = .ok a) : optional place name d (.named given) = .ok a := by
  simp [optional, get?, hgiven, hd]

/-- A field with a default is what is given, or the default. -/
theorem withDefault_named (default : α) (place : Nat) {encode : α → Value} {a : Option α}
    (hgiven : Value.field? name given = a.map encode) (hd : ∀ x ∈ a, d (encode x) = .ok x) :
    withDefault default place name d (.named given) = .ok (a.getD default) := by
  cases a with
  | none => simp [withDefault, get?, hgiven]
  | some x => simp [withDefault, get?, hgiven, hd x rfl]

end Fields

end Wire

/-! ## Single values -/

theorem Uuid.decode_encode (u : Uuid) : Uuid.decode u.encode = .ok u := by
  simp [decode, encode, Decoder.formatted, ofString?_toString]

theorem Moment.decode_encode (m : Moment) : Moment.decode m.encode = .ok m := by
  simp [decode, encode, Decoder.formatted, ofString?_toString]

theorem Status.decode_encode (s : Status) : Status.decode s.encode = .ok s := by
  cases s <;> rfl

/-- A value as an optional one shows it: a null is no value. -/
def Value.given? : Option Value → Option Value
  | some .null => none
  | v => v

theorem Value.given?_of_ne {v : Option Value} (h : v ≠ some .null) : given? v = v := by
  cases v with
  | none => rfl
  | some v =>
    cases v with
    | null => exact absurd rfl h
    | _ => rfl

theorem Wire.Decoder.nullable_any (v : Option Value) :
    Decoder.any.nullable (encodeOption id v) = .ok (Value.given? v) := by
  cases v with
  | none => rfl
  | some v => cases v <;> rfl

theorem Wire.Decoder.nullable_string (s : Option String) :
    Decoder.string.nullable (encodeOption .string s) = .ok s :=
  nullable_encodeOption string_string (by simp) s

/-! ## Records -/

theorem Event.decode_encode (e : Event) : Event.decode e.encode = .ok e := by
  refine Decoder.structure_object ?_ rfl
  simp [List.lookup_cons]

theorem Transition.decode_encode (t : Transition) : Transition.decode t.encode = .ok t := by
  have hevent := Decoder.nullable_string t.event
  have htime := t.time.decode_encode
  refine Decoder.structure_object ?_ ?_
  · simp [List.lookup_cons, Decoder.check_of_ok hevent, Decoder.check_of_ok htime]
  · rw [Fields.required_named 0 rfl (Decoder.string_string t.source),
      Fields.required_named 1 rfl (Decoder.string_string t.target),
      Fields.optional_named 2 rfl hevent, Fields.required_named 3 rfl htime]
    rfl

theorem History.decode_encode (h : History) : History.decode h.encode = .ok h := by
  have hlist := Decoder.list_map Transition.decode_encode h.transitions
  refine Decoder.structure_object ?_ ?_
  · simp [List.lookup_cons, Decoder.check_of_ok hlist]
  · rw [Fields.required_named 0 rfl hlist]
    rfl

/-- A snapshot reads back with its accumulator as an optional value shows it. -/
theorem Snapshot.decode_encode {s : Snapshot} (hs : s.transitions < 2 ^ 64) :
    Snapshot.decode s.encode = .ok { s with accumulator := Value.given? s.accumulator } := by
  have hmachine := s.machine.decode_encode
  have haliases := Decoder.list_encodeStrings s.aliases
  have hstatus := s.status.decode_encode
  have haccumulator := Decoder.nullable_any s.accumulator
  have htransitions := Decoder.word_encodeNat "u64" hs
  refine Decoder.structure_object ?_ ?_
  · simp [List.lookup_cons, Decoder.check_of_ok hmachine, Decoder.check_of_ok haliases,
      Decoder.check_of_ok hstatus, Decoder.check_of_ok haccumulator,
      Decoder.check_of_ok htransitions]
  · rw [Fields.required_named 0 rfl hmachine,
      Fields.required_named 1 rfl (Decoder.string_string s.state),
      Fields.required_named 2 rfl haliases, Fields.required_named 3 rfl hstatus,
      Fields.required_named 4 rfl (Decoder.bool_bool s.terminal),
      Fields.optional_named 5 rfl haccumulator, Fields.required_named 6 rfl htransitions]
    rfl

theorem Change.decode_encode {c : Change} (hc : c.sequence < 2 ^ 64) :
    Change.decode c.encode = .ok { c with accumulator := Value.given? c.accumulator } := by
  have hmachine := c.machine.decode_encode
  have hsequence := Decoder.word_encodeNat "u64" hc
  have haliases := Decoder.list_encodeStrings c.aliases
  have hevent := Decoder.nullable_string c.event
  have haccumulator := Decoder.nullable_any c.accumulator
  refine Decoder.structure_object ?_ ?_
  · simp [List.lookup_cons, Decoder.check_of_ok hmachine, Decoder.check_of_ok hsequence,
      Decoder.check_of_ok haliases, Decoder.check_of_ok hevent, Decoder.check_of_ok haccumulator]
  · rw [Fields.required_named 0 rfl hmachine, Fields.required_named 1 rfl hsequence,
      Fields.required_named 2 rfl (Decoder.string_string c.previous),
      Fields.required_named 3 rfl (Decoder.string_string c.state),
      Fields.required_named 4 rfl haliases, Fields.optional_named 5 rfl hevent,
      Fields.optional_named 6 rfl haccumulator]
    rfl

/-! ## Settings -/

/-- The fields of settings that are given, each of them or none. -/
def Settings.given (label : Option String) (limit : Option Nat) (record : Option Bool) :
    List (String × Value) :=
  (label.map fun l => ("label", Value.string l)).toList ++
    (limit.map fun n => ("max_delegation_depth", encodeNat n)).toList ++
    (record.map fun b => ("record_history", Value.bool b)).toList

section

variable {label : Option String} {limit : Option Nat} {record : Option Bool}

theorem Settings.nodup_given : ((given label limit record).map Prod.fst).Nodup := by
  cases label <;> cases limit <;> cases record <;> simp [given]

theorem Settings.field?_label :
    Value.field? "label" (given label limit record) = label.map .string := by
  cases label <;> cases limit <;> cases record <;> simp [given, Value.field?]

theorem Settings.field?_limit :
    Value.field? "max_delegation_depth" (given label limit record) = limit.map encodeNat := by
  cases label <;> cases limit <;> cases record <;> simp [given, Value.field?]

theorem Settings.field?_record :
    Value.field? "record_history" (given label limit record) = record.map .bool := by
  cases label <;> cases limit <;> cases record <;> simp [given, Value.field?]

/-- Each setting that is given, in whatever place, is read; each one that is not has its default. -/
theorem Settings.decode_given {fields : List (String × Value)}
    (hlimit : ∀ n ∈ limit, n < 2 ^ 64) (hfields : fields.Perm (given label limit record)) :
    Settings.decode (.object fields) =
      .ok { label := label.getD "machine", delegationLimit := limit.getD 32,
            recordHistory := record.getD true } := by
  have hword (n : Nat) (hn : n ∈ limit) : Decoder.word "usize" (encodeNat n) = .ok n :=
    Decoder.word_encodeNat "usize" (hlimit n hn)
  have hread (key : String) : Value.field? key fields = Value.field? key (given label limit record) :=
    Value.field?_perm hfields nodup_given
  have hlabel : Fields.withDefault "machine" 0 "label" .string (.named fields) =
      .ok (label.getD "machine") :=
    Fields.withDefault_named _ 0 ((hread _).trans field?_label) fun _ _ => rfl
  have hdepth : Fields.withDefault 32 1 "max_delegation_depth" (.word "usize") (.named fields) =
      .ok (limit.getD 32) :=
    Fields.withDefault_named _ 1 ((hread _).trans field?_limit) hword
  have hrecord : Fields.withDefault true 2 "record_history" .bool (.named fields) =
      .ok (record.getD true) :=
    Fields.withDefault_named _ 2 ((hread _).trans field?_record) fun _ _ => rfl
  refine Decoder.structure_object ?_ ?_
  · intro f hf
    simp only [hfields.mem_iff, given, List.mem_append, Option.mem_toList,
      Option.map_eq_some_iff] at hf
    rcases hf with (⟨l, -, rfl⟩ | ⟨n, hn, rfl⟩) | ⟨b, -, rfl⟩
    · simp
    · simp [List.lookup_cons, Decoder.check_of_ok (hword n hn)]
    · simp [List.lookup_cons]
  · dsimp only
    rw [hlabel, hdepth, hrecord]
    rfl

end

/-- Settings read back as they were. -/
theorem Settings.decode_encode {s : Settings} (hs : s.delegationLimit < 2 ^ 64) :
    Settings.decode s.encode = .ok s := by
  have hlimit : ∀ n ∈ some s.delegationLimit, n < 2 ^ 64 := by simpa using hs
  exact decode_given hlimit
    (List.Perm.refl (given (some s.label) (some s.delegationLimit) (some s.recordHistory)))

/-! ## What writing keeps -/

theorem Wire.encodeOption_given? (v : Option Value) :
    encodeOption id (Value.given? v) = encodeOption id v := by
  cases v with
  | none => rfl
  | some v => cases v <;> rfl

/-- Snapshots and changes come back from their written forms as they were, but that an accumulated
null comes back as no accumulator. Two of them are written alike just when they agree up to that. -/
theorem reports_read_back {s t : Snapshot} (hs : s.transitions < 2 ^ 64)
    (ht : t.transitions < 2 ^ 64) {c d : Change} (hc : c.sequence < 2 ^ 64)
    (hd : d.sequence < 2 ^ 64) :
    (Snapshot.decode s.encode = .ok { s with accumulator := Value.given? s.accumulator } ∧
      (s.accumulator ≠ some .null → Snapshot.decode s.encode = .ok s) ∧
      (s.encode = t.encode ↔
        { s with accumulator := Value.given? s.accumulator } =
          { t with accumulator := Value.given? t.accumulator })) ∧
    (Change.decode c.encode = .ok { c with accumulator := Value.given? c.accumulator } ∧
      (c.accumulator ≠ some .null → Change.decode c.encode = .ok c) ∧
      (c.encode = d.encode ↔
        { c with accumulator := Value.given? c.accumulator } =
          { d with accumulator := Value.given? d.accumulator })) := by
  have hread := Snapshot.decode_encode hs
  have hreadChange := Change.decode_encode hc
  refine ⟨⟨hread, fun hne => ?_, fun heq => ?_, fun heq => ?_⟩,
    hreadChange, fun hne => ?_, fun heq => ?_, fun heq => ?_⟩
  · rw [hread, Value.given?_of_ne hne]
  · rw [heq, Snapshot.decode_encode ht] at hread
    exact (Except.ok.inj hread).symm
  · have hencode := congrArg Snapshot.encode heq
    simpa only [Snapshot.encode, encodeOption_given?] using hencode
  · rw [hreadChange, Value.given?_of_ne hne]
  · rw [heq, Change.decode_encode hd] at hreadChange
    exact (Except.ok.inj hreadChange).symm
  · have hencode := congrArg Change.encode heq
    simpa only [Change.encode, encodeOption_given?] using hencode

/-- A lamp in either state of which a null is carried. -/
def Lamp.hollow : Program Unit where
  declared _ := .yield (.accumulate .null) (.finish (.ok ()))
  subscriber _ h := h

/-- The snapshot of a machine that carries a null. -/
def Lamp.hollowed : Snapshot where
  machine := Uuid.ofNat 0
  state := "Off"
  aliases := []
  status := .running
  terminal := false
  accumulator := some .null
  transitions := 0

theorem reports_read_back_hollowed :
    Snapshot.decode Lamp.hollowed.encode = .ok { Lamp.hollowed with accumulator := none } :=
  (reports_read_back (t := Lamp.hollowed) (by decide) (by decide)
    (c := ⟨Uuid.ofNat 0, 1, "Off", "On", [], none, some .null⟩)
    (d := ⟨Uuid.ofNat 0, 1, "Off", "On", [], none, none⟩) (by decide) (by decide)).1.1

/-- A running machine is seen with a null accumulated; its written form reads as a snapshot without
an accumulator, which is another one with the same written form. -/
theorem null_reads_back_as_none :
    ((Lamp.hollow.run 8 Lamp.start).world.machineView? ⟨0⟩).map (·.snapshot) = some Lamp.hollowed ∧
      Snapshot.decode Lamp.hollowed.encode ≠ .ok Lamp.hollowed ∧
      { Lamp.hollowed with accumulator := none }.encode = Lamp.hollowed.encode ∧
      { Lamp.hollowed with accumulator := none } ≠ Lamp.hollowed := by
  have hne : { Lamp.hollowed with accumulator := none } ≠ Lamp.hollowed := by decide
  have hread : Snapshot.decode Lamp.hollowed.encode =
      .ok { Lamp.hollowed with accumulator := none } :=
    Snapshot.decode_encode (by decide)
  refine ⟨rfl, fun hsame => ?_, rfl, hne⟩
  rw [hread] at hsame
  exact hne (Except.ok.inj hsame)

end ScopedMachine
