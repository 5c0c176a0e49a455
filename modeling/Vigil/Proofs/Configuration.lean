import Mathlib.Data.List.TakeWhile
import Mathlib.Data.Nat.Digits.Lemmas
import Mathlib.Data.Set.List
import Vigil.Config

/-!
# What an environment configures

- `Numeral`: a number as it may be written, with its value. These are the texts that are read as numbers, and nothing
  else is (`readNumber?_eq_some_iff`);
- `Spells`: a text spells bytes. Whatever stands for the bytes that are not ASCII, a text of ASCII characters spells its
  own bytes, and no other text spells these (`Spells.eq_asciiBytes_iff`). Any bytes are spelled by a text with a
  character for each (`Spells.bytewise`), and a text spells its bytes in UTF-8 (`Spells.utf8`);
- `configuration_exact`: each field of a configuration as a function of the bytes of its variable.
-/

namespace Vigil

/-- Only ASCII characters. -/
def Ascii (cs : List Char) : Prop := ∀ c ∈ cs, c.toNat < 128

instance (cs : List Char) : Decidable (Ascii cs) := List.decidableBAll (fun c : Char => c.toNat < 128) cs

/-! ## Digits -/

/-- A digit as it is written. -/
def digitText (d : Fin 10) : Char := Nat.digitChar d

theorem toNat_digitText (d : Fin 10) : (digitText d).toNat = 48 + d := Nat.toNat_digitChar_of_lt_ten d.isLt

theorem isDigit_iff {c : Char} : c.isDigit = true ↔ ∃ d, digitText d = c := by
  rw [Char.isDigit_iff_toNat]
  constructor
  · rintro ⟨hlow, hhigh⟩
    have hlow : 48 ≤ c.toNat := hlow
    have hhigh : c.toNat ≤ 57 := hhigh
    refine ⟨⟨c.toNat - 48, by omega⟩, Char.toNat_inj.1 ?_⟩
    rw [toNat_digitText]
    exact Nat.add_sub_of_le hlow
  · rintro ⟨d, rfl⟩
    have hd : 48 + d.val ≤ 57 := by omega
    rw [toNat_digitText]
    exact ⟨Nat.le_add_right _ _, hd⟩

theorem all_isDigit_iff {cs : List Char} :
    cs.all Char.isDigit = true ↔ ∃ ds : List (Fin 10), ds.map digitText = cs := by
  show _ ↔ cs ∈ Set.range (List.map digitText)
  rw [Set.range_list_map, List.all_eq_true]
  exact forall₂_congr fun c _ => isDigit_iff

theorem isDigit_of_mem_repr {n : Nat} {c : Char} (h : c ∈ n.repr.toList) : c.isDigit = true :=
  Nat.isDigit_of_mem_toDigits (by decide) (by decide) (Nat.toList_repr ▸ h)

theorem ascii_repr (n : Nat) : Ascii n.repr.toList := fun _ h =>
  Nat.lt_of_le_of_lt (Char.isDigit_iff_toNat.1 (isDigit_of_mem_repr h)).2 (by decide)

theorem digitsValue_append (cs : List Char) (c : Char) :
    digitsValue (cs ++ [c]) = 10 * digitsValue cs + (c.toNat - 48) :=
  List.foldl_append

theorem digitsValue_map (ds : List (Fin 10)) :
    digitsValue (ds.map digitText) = Nat.ofDigits 10 (ds.map Fin.val).reverse := by
  induction ds using List.reverseRecOn with
  | nil => rfl
  | append_singleton ds d ih =>
    rw [List.map_append, List.map_singleton, digitsValue_append, ih, toNat_digitText, List.map_append,
      List.map_singleton, List.reverse_append, List.reverse_singleton, List.singleton_append, Nat.ofDigits_cons]
    omega

/-! ## Numerals -/

/-- What may stand in front of digits. -/
inductive Numeral.Sign where
  | none
  | plus
  | minus
  deriving DecidableEq

/-- A sign as it is written. -/
def Numeral.Sign.chars : Sign → List Char
  | none => []
  | plus => ['+']
  | minus => ['-']

/-- A number as it may be written: blanks, a sign or none, and decimal digits. -/
structure Numeral where
  blanks : List Char
  sign : Numeral.Sign
  digits : List (Fin 10)
  blanks_subset : blanks ⊆ [' ', '\t', '\n', '\x0b', '\x0c', '\r']
  digits_ne_nil : digits ≠ []

namespace Numeral

/-- The characters that a number is written with. -/
def chars (n : Numeral) : List Char := n.blanks ++ (n.sign.chars ++ n.digits.map digitText)

/-- A number as it is written. -/
def text (n : Numeral) : String := String.ofList n.chars

/-- The value of the digits, the last of which has the lowest weight. -/
def magnitude (n : Numeral) : Nat := Nat.ofDigits 10 (n.digits.map Fin.val).reverse

/-- The value in 64 bits. Digits that do not fit saturate whatever the sign, and others are negated by a minus. -/
def value (n : Numeral) : Nat :=
  if 2 ^ 64 ≤ n.magnitude then 2 ^ 64 - 1
  else if n.sign = .minus then (-(n.magnitude : Int) % 2 ^ 64).toNat
  else n.magnitude

theorem value_eq (n : Numeral) : n.value = signedValue (n.sign = .minus) n.magnitude := by
  unfold value signedValue maxNumber
  split_ifs <;> grind

theorem ascii_chars (n : Numeral) : Ascii n.chars := by
  have hblanks : Ascii [' ', '\t', '\n', '\x0b', '\x0c', '\r'] := by decide
  have hsign : ∀ s : Sign, Ascii s.chars := fun s => by cases s <;> decide
  intro c h
  rcases List.mem_append.1 h with h | h
  · exact hblanks c (n.blanks_subset h)
  · rcases List.mem_append.1 h with h | h
    · exact hsign n.sign c h
    · obtain ⟨d, -, rfl⟩ := List.mem_map.1 h
      rw [toNat_digitText]
      omega

theorem ascii_text (n : Numeral) : Ascii n.text.toList := by
  rw [text, String.toList_ofList]
  exact n.ascii_chars

end Numeral

theorem isBlank_iff {c : Char} : isBlank c = true ↔ c ∈ [' ', '\t', '\n', '\x0b', '\x0c', '\r'] := by
  have hle (a b : Char) : a ≤ b ↔ a.toNat ≤ b.toNat := Iff.rfl
  simp only [isBlank, Bool.or_eq_true, Bool.and_eq_true, beq_iff_eq, decide_eq_true_eq, hle, List.mem_cons,
    List.not_mem_nil, or_false, ← Char.toNat_inj, Char.reduceToNat]
  omega

/-- The blanks in front of a number end with its sign or its first digit. -/
theorem dropWhile_isBlank_sign (s : Numeral.Sign) (d : Fin 10) (cs : List Char) :
    (s.chars ++ digitText d :: cs).dropWhile isBlank = s.chars ++ digitText d :: cs := by
  cases s with
  | none =>
    have hdigit : ∀ d, isBlank (digitText d) = false := by decide
    exact List.dropWhile_cons_of_neg (by rw [hdigit]; decide)
  | plus => rfl
  | minus => rfl

theorem splitSign_sign (s : Numeral.Sign) (d : Fin 10) (cs : List Char) :
    splitSign (s.chars ++ digitText d :: cs) = (decide (s = .minus), digitText d :: cs) := by
  cases s with
  | none =>
    have hminus : ∀ d, digitText d ≠ '-' := by decide
    have hplus : ∀ d, digitText d ≠ '+' := by decide
    show splitSign (digitText d :: cs) = _
    unfold splitSign
    split
    · rename_i heq
      exact absurd (List.cons.inj heq).1 (hminus d)
    · rename_i heq
      exact absurd (List.cons.inj heq).1 (hplus d)
    · rfl
  | plus => rfl
  | minus => rfl

theorem exists_splitSign (cs : List Char) :
    ∃ s : Numeral.Sign, cs = s.chars ++ (splitSign cs).2 ∧ (splitSign cs).1 = decide (s = .minus) := by
  fun_cases splitSign cs with
  | case1 cs => exact ⟨.minus, rfl, rfl⟩
  | case2 cs => exact ⟨.plus, rfl, rfl⟩
  | case3 cs => exact ⟨.none, rfl, rfl⟩

/-- A text that is read as a number is a numeral: the blanks that are skipped, the sign that is split off and digits. -/
theorem numeral_of_readNumber? {s : String} {v : Nat} (h : readNumber? s = some v) :
    ∃ n : Numeral, n.text = s ∧ n.value = v := by
  let rest := s.toList.dropWhile isBlank
  obtain ⟨sign, hrest, hsign⟩ := exists_splitSign rest
  have hread : readNumber? s = if !(splitSign rest).2.isEmpty && (splitSign rest).2.all Char.isDigit then
      some (signedValue (splitSign rest).1 (digitsValue (splitSign rest).2)) else none := rfl
  rw [hread] at h
  split at h
  · rename_i hdigits
    obtain ⟨hne, hall⟩ := Bool.and_eq_true_iff.1 hdigits
    obtain ⟨ds, hds⟩ := all_isDigit_iff.1 hall
    have hblanks : s.toList.takeWhile isBlank ⊆ [' ', '\t', '\n', '\x0b', '\x0c', '\r'] := fun c hc =>
      isBlank_iff.1 (List.mem_takeWhile_imp hc)
    refine ⟨⟨s.toList.takeWhile isBlank, sign, ds, hblanks, ?_⟩, ?_, ?_⟩
    · rintro rfl
      rw [← hds] at hne
      cases hne
    · rw [Numeral.text, Numeral.chars, hds, ← hrest, List.takeWhile_append_dropWhile]
      exact String.ofList_toList
    · rw [Numeral.value_eq, ← hsign, Numeral.magnitude, ← digitsValue_map, hds]
      exact Option.some.inj h
  · cases h

theorem readNumber?_text (n : Numeral) : readNumber? n.text = some n.value := by
  obtain ⟨d, ds, hds⟩ := List.exists_cons_of_ne_nil n.digits_ne_nil
  have hrest : n.text.toList.dropWhile isBlank = n.sign.chars ++ digitText d :: ds.map digitText := by
    rw [Numeral.text, String.toList_ofList, Numeral.chars,
      List.dropWhile_append_of_pos fun c hc => isBlank_iff.2 (n.blanks_subset hc), hds]
    exact dropWhile_isBlank_sign n.sign d _
  have hall : (digitText d :: ds.map digitText).all Char.isDigit = true := all_isDigit_iff.2 ⟨d :: ds, rfl⟩
  rw [readNumber?, hrest, splitSign_sign, Numeral.value_eq, Numeral.magnitude, ← digitsValue_map, hds]
  simp [hall]

/-- The texts that are read as numbers are the numerals, and they are read as their values. -/
theorem readNumber?_eq_some_iff {s : String} {v : Nat} :
    readNumber? s = some v ↔ ∃ n : Numeral, n.text = s ∧ n.value = v := by
  refine ⟨numeral_of_readNumber?, ?_⟩
  rintro ⟨n, rfl, rfl⟩
  exact readNumber?_text n

/-- A number that fits is read from its decimal digits. -/
theorem readNumber?_repr {n : Nat} (hn : n ≤ maxNumber) : readNumber? n.repr = some n := by
  obtain ⟨ds, hds⟩ := all_isDigit_iff.1 (List.all_eq_true.2 fun _ hc => isDigit_of_mem_repr (n := n) hc)
  rw [Nat.toList_repr] at hds
  have hne : ds ≠ [] := by
    rintro rfl
    exact Nat.toDigits_ne_nil hds.symm
  have hvalue : digitsValue (Nat.toDigits 10 n) = n := Nat.ofDigitChars_toDigits (by decide) (by decide)
  refine readNumber?_eq_some_iff.2 ⟨⟨[], .none, ds, List.nil_subset _, hne⟩, ?_, ?_⟩
  · rw [Numeral.text, ← String.toList_inj, String.toList_ofList, Nat.toList_repr, ← hds]
    rfl
  · rw [Numeral.value_eq, Numeral.magnitude, ← digitsValue_map, hds, hvalue]
    exact if_neg (Nat.not_lt.2 hn)

/-! ## Bytes -/

/-- The bytes of ASCII text. -/
def asciiBytes (s : String) : List UInt8 := s.toList.map Char.toUInt8

/-- A text spells bytes: an ASCII character its own byte, and any other character some bytes that are not ASCII. -/
inductive Spells : List Char → List UInt8 → Prop
  | nil : Spells [] []
  | ascii {c : Char} {cs : List Char} {bs : List UInt8} (hc : c.toNat < 128) (h : Spells cs bs) :
    Spells (c :: cs) (c.toUInt8 :: bs)
  | other {c : Char} {cs : List Char} {bs : List UInt8} (b : UInt8) (part : List UInt8) (hc : 128 ≤ c.toNat)
    (hpart : ∀ x ∈ b :: part, 128 ≤ x.toNat) (h : Spells cs bs) : Spells (c :: cs) (b :: part ++ bs)

/-- The byte of an ASCII character has its number. -/
theorem toNat_toUInt8 {c : Char} (hc : c.toNat < 128) : c.toUInt8.toNat = c.toNat :=
  Nat.mod_eq_of_lt (Nat.lt_trans hc (by decide))

namespace Spells

variable {cs : List Char} {bs : List UInt8}

theorem eq_map_iff (h : Spells cs bs) {t : List Char} (ht : Ascii t) :
    bs = t.map Char.toUInt8 ↔ cs = t := by
  induction h generalizing t with
  | nil => cases t <;> simp
  | @ascii c cs bs hc _ ih =>
    cases t with
    | nil => simp
    | cons c' t =>
      obtain ⟨hc', ht⟩ := List.forall_mem_cons.1 ht
      have hbyte : c.toUInt8 = c'.toUInt8 ↔ c = c' := by
        rw [← UInt8.toNat_inj, toNat_toUInt8 hc, toNat_toUInt8 hc', Char.toNat_inj]
      rw [List.map_cons, List.cons.injEq, List.cons.injEq, hbyte, ih ht]
  | @other c cs bs b part hc hpart _ _ =>
    cases t with
    | nil => simp
    | cons c' t =>
      have hc' : c'.toNat < 128 := ht c' List.mem_cons_self
      have hb : 128 ≤ b.toNat := hpart b List.mem_cons_self
      refine iff_of_false (fun h => ?_) fun h => ?_
      · have hhead : b = c'.toUInt8 := (List.cons.inj h).1
        rw [hhead, toNat_toUInt8 hc'] at hb
        omega
      · have hhead : c = c' := (List.cons.inj h).1
        rw [hhead] at hc
        omega

/-- Only one text spells the bytes of ASCII text, and it spells no others. -/
theorem eq_asciiBytes_iff {s t : String} (h : Spells s.toList bs) (ht : Ascii t.toList) :
    bs = asciiBytes t ↔ s = t :=
  (h.eq_map_iff ht).trans String.toList_inj

/-- Any bytes are spelled by a text that has a character for each of them. -/
theorem bytewise (bs : List UInt8) : Spells (bs.map Char.ofUInt8) bs := by
  induction bs with
  | nil => exact .nil
  | cons b bs ih =>
    have hchar : (Char.ofUInt8 b).toNat = b.toNat := rfl
    by_cases hb : b.toNat < 128
    · have hbyte : (Char.ofUInt8 b).toUInt8 = b := by
        rw [← UInt8.toNat_inj, toNat_toUInt8 (by rwa [hchar]), hchar]
      have hcons := ih.ascii (c := Char.ofUInt8 b) (by rwa [hchar])
      rwa [hbyte] at hcons
    · exact .other b [] (by omega) (by simpa using hb) ih

/-- A character spells its bytes in UTF-8. -/
theorem cons_utf8 (h : Spells cs bs) (c : Char) : Spells (c :: cs) (String.utf8EncodeChar c ++ bs) := by
  have hval : c.val.toNat = c.toNat := rfl
  unfold String.utf8EncodeChar
  dsimp only
  rw [hval]
  split_ifs with hone
  · exact .ascii (by omega) h
  -- Each byte of a longer sequence has its highest bit set.
  all_goals
    refine .other _ _ (by omega) ?_ h
    simp only [List.mem_cons, List.not_mem_nil, or_false, forall_eq_or_imp, forall_eq, UInt8.toNat_ofNat']
    omega

/-- A text spells its bytes in UTF-8. -/
theorem utf8 (s : String) : Spells s.toList s.toUTF8.data.toList := by
  have hbytes : s.toUTF8.data.toList = s.toList.flatMap String.utf8EncodeChar := by
    rw [String.toUTF8_eq_toByteArray, ← String.utf8Encode_toList, List.utf8Encode, List.toList_data_toByteArray]
  rw [hbytes]
  induction s.toList with
  | nil => exact .nil
  | cons c cs ih => exact ih.cons_utf8 c

end Spells

/-! ## Environments -/

/-- The texts of an environment spell the bytes of its variables. -/
def Environment.Spells (env : Environment) (raw : String → Option (List UInt8)) : Prop :=
  ∀ name, Option.Rel (fun s bs => Vigil.Spells s.toList bs) (env name) (raw name)

namespace Environment.Spells

variable {env : Environment} {raw : String → Option (List UInt8)}

theorem eq_none_iff (h : env.Spells raw) (name : String) : env name = none ↔ raw name = none := by
  have hname := h name
  generalize env name = v at hname ⊢
  generalize raw name = w at hname ⊢
  cases hname <;> simp

theorem eq_some_iff (h : env.Spells raw) (name : String) {t : String} (ht : Ascii t.toList) :
    env name = some t ↔ raw name = some (asciiBytes t) := by
  have hname := h name
  generalize env name = v at hname ⊢
  generalize raw name = w at hname ⊢
  cases hname with
  | none => simp
  | some hs => rw [Option.some.injEq, Option.some.injEq, hs.eq_asciiBytes_iff ht]

/-- An unset variable is taken as an empty one. -/
theorem getD (h : env.Spells raw) (name : String) : Vigil.Spells ((env name).getD "").toList ((raw name).getD []) := by
  have hname := h name
  generalize env name = v at hname ⊢
  generalize raw name = w at hname ⊢
  cases hname with
  | none => exact .nil
  | some hs => exact hs

theorem exists_env (raw : String → Option (List UInt8)) : ∃ env : Environment, env.Spells raw := by
  refine ⟨fun name => (raw name).map fun bs => String.ofList (bs.map Char.ofUInt8), fun name => ?_⟩
  show Option.Rel _ (Option.map _ (raw name)) (raw name)
  cases raw name with
  | none => exact .none
  | some bs =>
    have hspells := Vigil.Spells.bytewise bs
    rw [← String.toList_ofList (l := bs.map Char.ofUInt8)] at hspells
    exact .some hspells

theorem utf8 (env : Environment) :
    env.Spells fun name => (env name).map fun s => s.toUTF8.data.toList := fun name => by
  show Option.Rel _ (env name) (Option.map _ (env name))
  cases env name with
  | none => exact .none
  | some s => exact .some (Vigil.Spells.utf8 s)

end Environment.Spells

/-! ## Fields -/

namespace Config

theorem debugOf_iff (v : Option String) : debugOf v = true ↔ v ≠ none ∧ v ≠ some "" ∧ v ≠ some "0" := by
  cases v with
  | none => simp [debugOf]
  | some s => simp [debugOf]

theorem indentOf_text (n : Numeral) : (indentOf (some n.text)).toNat = n.value % 2 ^ 32 := by
  rw [indentOf, Option.bind_some, readNumber?_text, Option.getD_some, UInt32.toNat_ofNat']

theorem indentOf_eq_zero {v : Option String} (h : ∀ n : Numeral, v ≠ some n.text) : indentOf v = 0 := by
  have hnone : v.bind readNumber? = none := by
    refine Option.eq_none_iff_forall_ne_some.2 fun m hm => ?_
    obtain ⟨s, rfl, hs⟩ := Option.bind_eq_some_iff.1 hm
    obtain ⟨n, rfl, -⟩ := readNumber?_eq_some_iff.1 hs
    exact h n rfl
  rw [indentOf, hnone]
  rfl

theorem indentOf_repr (n : UInt32) : indentOf (some n.toNat.repr) = n := by
  have hn : n.toNat ≤ maxNumber := Nat.le_trans (Nat.le_of_lt n.toNat_lt) (by decide)
  rw [indentOf, Option.bind_some, readNumber?_repr hn, Option.getD_some, UInt32.ofNat_toNat]

theorem wakeOf_eq_pipe_iff (v : Option String) : wakeOf v = .pipe ↔ v = some "pipe" := by
  cases v with
  | none => simp [wakeOf]
  | some s =>
    rw [wakeOf, Option.bind_some, WakeStrategy.ofName?, Option.some.injEq]
    split_ifs with hnative hpipe
    · rcases hnative with rfl | rfl <;> simp [WakeStrategy.name]
    · exact iff_of_true rfl hpipe
    · exact iff_of_false (fun h => nomatch h) hpipe

theorem isSome_ofName? {s : String} :
    (WakeStrategy.ofName? s).isSome = true ↔ s = "" ∨ s = "native" ∨ s = "pipe" := by
  unfold WakeStrategy.ofName?
  split_ifs with hnative hpipe
  · exact iff_of_true rfl (hnative.imp_right .inl)
  · exact iff_of_true rfl (.inr (.inr hpipe))
  · refine iff_of_false (fun h => nomatch h) ?_
    rintro (h | h | h)
    · exact hnative (.inl h)
    · exact hnative (.inr h)
    · exact hpipe h

theorem complaint_eq_some_iff {env : Environment} {m : String} :
    complaint env = some m ↔ ∃ s, env "READYQ_NOTIFY" = some s ∧ s ≠ "" ∧ s ≠ "native" ∧ s ≠ "pipe" ∧
      m = "readyq: ignoring unknown READYQ_NOTIFY value '" ++ s ++ "'\n" := by
  unfold complaint
  cases env "READYQ_NOTIFY" with
  | none => simp
  | some s =>
    simp only [isSome_ofName?, Option.some.injEq]
    split_ifs with hs <;> grind

end Config

/-- **Configuration.** Take any bytes for the variables, and texts that spell them; any bytes can be spelled, and texts
spell their bytes in UTF-8. Messages are written if their variable is set, not empty and not a zero. The indentation is
the value of a numeral, in 32 bits, and zero for every other text; what fits is read from its decimal digits. The
backend is taken as it is. Waits are woken through a pipe just if that is asked for, and whoever asks for anything but a
pipe, the kernel's own means or nothing is told so. No variable decides the field of another one. -/
theorem configuration_exact :
    (∀ raw, ∃ env : Environment, env.Spells raw) ∧
    (∀ env : Environment, env.Spells fun name => (env name).map fun s => s.toUTF8.data.toList) ∧
    ∀ (raw : String → Option (List UInt8)) (env : Environment), env.Spells raw →
      let c := Config.ofEnvironment env
      let debug := raw "READYQ_DEBUG"
      let indent := raw "READYQ_DEBUG_INDENT"
      let notify := raw "READYQ_NOTIFY"
      (c.debug = true ↔ debug ≠ none ∧ debug ≠ some [] ∧ debug ≠ some (asciiBytes "0")) ∧
      (∀ n : Numeral, indent = some (asciiBytes n.text) → c.indent.toNat = n.value % 2 ^ 32) ∧
      ((∀ n : Numeral, indent ≠ some (asciiBytes n.text)) → c.indent = 0) ∧
      (∀ n : UInt32, indent = some (asciiBytes n.toNat.repr) → c.indent = n) ∧
      c.backend = (env "READYQ_BACKEND").getD "" ∧ Spells c.backend.toList ((raw "READYQ_BACKEND").getD []) ∧
      (c.wake = .pipe ↔ notify = some (asciiBytes "pipe")) ∧
      (∀ m, Config.complaint env = some m ↔ notify ≠ some [] ∧ notify ≠ some (asciiBytes "native") ∧
        notify ≠ some (asciiBytes "pipe") ∧ ∃ s, env "READYQ_NOTIFY" = some s ∧
          m = "readyq: ignoring unknown READYQ_NOTIFY value '" ++ s ++ "'\n") ∧
      ∀ (name : String) (env' : Environment), (∀ other, other ≠ name → env' other = env other) →
        let c' := Config.ofEnvironment env'
        (name ≠ "READYQ_DEBUG" → c'.debug = c.debug) ∧
        (name ≠ "READYQ_DEBUG_INDENT" → c'.indent = c.indent) ∧
        (name ≠ "READYQ_BACKEND" → c'.backend = c.backend) ∧
        (name ≠ "READYQ_NOTIFY" → c'.wake = c.wake ∧ Config.complaint env' = Config.complaint env) := by
  refine ⟨Environment.Spells.exists_env, Environment.Spells.utf8, fun raw env henv => ?_⟩
  intro c debug indent notify
  have hempty (name : String) : env name = some "" ↔ raw name = some [] := henv.eq_some_iff name (by decide)
  refine ⟨?_, fun n hn => ?_, fun hnone => ?_, fun n hn => ?_, rfl, henv.getD _, ?_, fun m => ?_,
    fun name env' hsame => ?_⟩
  · show Config.debugOf (env "READYQ_DEBUG") = true ↔ _
    rw [Config.debugOf_iff, Ne, Ne, Ne, henv.eq_none_iff, hempty, henv.eq_some_iff _ (by decide)]
  · have hindent : env "READYQ_DEBUG_INDENT" = some n.text := (henv.eq_some_iff _ n.ascii_text).2 hn
    show (Config.indentOf (env "READYQ_DEBUG_INDENT")).toNat = _
    rw [hindent, Config.indentOf_text]
  · exact Config.indentOf_eq_zero fun n hn => hnone n ((henv.eq_some_iff _ n.ascii_text).1 hn)
  · have hindent : env "READYQ_DEBUG_INDENT" = some n.toNat.repr :=
      (henv.eq_some_iff _ (ascii_repr _)).2 hn
    show Config.indentOf (env "READYQ_DEBUG_INDENT") = n
    rw [hindent, Config.indentOf_repr]
  · show Config.wakeOf (env "READYQ_NOTIFY") = .pipe ↔ _
    rw [Config.wakeOf_eq_pipe_iff, henv.eq_some_iff _ (by decide)]
  · have hnative := henv.eq_some_iff "READYQ_NOTIFY" (t := "native") (by decide)
    have hpipe := henv.eq_some_iff "READYQ_NOTIFY" (t := "pipe") (by decide)
    rw [Config.complaint_eq_some_iff, Ne, Ne, Ne, ← hempty, ← hnative, ← hpipe]
    constructor
    · rintro ⟨s, hs, hne, hnative, hpipe, rfl⟩
      simp [hs, hne, hnative, hpipe]
    · rintro ⟨hne, hnative, hpipe, s, hs, rfl⟩
      rw [hs] at hne hnative hpipe
      refine ⟨s, hs, ?_, ?_, ?_, rfl⟩
      · exact fun h => hne (congrArg some h)
      · exact fun h => hnative (congrArg some h)
      · exact fun h => hpipe (congrArg some h)
  · have hother (v : String) (hv : name ≠ v) : env' v = env v := hsame v fun h => hv h.symm
    refine ⟨fun hv => ?_, fun hv => ?_, fun hv => ?_, fun hv => ⟨?_, ?_⟩⟩
    · exact congrArg Config.debugOf (hother _ hv)
    · exact congrArg Config.indentOf (hother _ hv)
    · exact congrArg (·.getD "") (hother _ hv)
    · exact congrArg Config.wakeOf (hother _ hv)
    · unfold Config.complaint
      rw [hother _ hv]

/-- A negative number behind a tab wraps around twice, and a byte that is no text of its own asks for nothing known. -/
theorem configuration_exact_wrapped :
    let raw : String → Option (List UInt8) := fun name =>
      if name = "READYQ_DEBUG_INDENT" then some (asciiBytes "\t-4294967295")
      else if name = "READYQ_NOTIFY" then some [255]
      else none
    ∃ env : Environment, env.Spells raw ∧ (Config.ofEnvironment env).debug = false ∧
      (Config.ofEnvironment env).indent = 1 ∧ (Config.ofEnvironment env).wake = .native ∧
      ∃ m, Config.complaint env = some m := by
  intro raw
  obtain ⟨hexists, -, hexact⟩ := configuration_exact
  obtain ⟨env, henv⟩ := hexists raw
  obtain ⟨hdebug, hindent, -, -, -, -, hwake, hcomplaint, -⟩ := hexact raw env henv
  let n : Numeral := ⟨['\t'], .minus, [4, 2, 9, 4, 9, 6, 7, 2, 9, 5], by decide, by decide⟩
  have htext : raw "READYQ_DEBUG_INDENT" = some (asciiBytes n.text) := by decide +kernel
  have hvalue : n.value % 2 ^ 32 = 1 := by decide +kernel
  have hn : (Config.ofEnvironment env).indent.toNat = 1 := (hindent n htext).trans hvalue
  obtain ⟨s, hs⟩ : ∃ s, env "READYQ_NOTIFY" = some s :=
    Option.ne_none_iff_exists'.1 fun h => by cases (henv.eq_none_iff "READYQ_NOTIFY").1 h
  refine ⟨env, henv, ?_, UInt32.toNat_inj.1 hn, ?_, _, (hcomplaint _).2 ⟨?_, ?_, ?_, s, hs, rfl⟩⟩
  · exact Bool.eq_false_iff.2 fun h => (hdebug.1 h).1 rfl
  · cases h : (Config.ofEnvironment env).wake with
    | native => rfl
    | pipe => exact absurd (hwake.1 h) (by decide)
  · decide
  · decide
  · decide

end Vigil
