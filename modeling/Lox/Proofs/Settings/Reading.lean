import Lox.Proofs.Printing.Quotes
import Lox.Proofs.Settings.Sizes
import Lox.Settings

/-!
# Reading the settings

A variable leaves its setting at the default, sets it (`SetsText`, `SetsSize`), or is refused with a message
(`RefusedText`, `RefusedSize`). The settings can be read if and only if none of the variables is refused, and
otherwise the first one that is decides the error (`ofLookup_reads`): what the others hold makes no difference to
it. No two faults have the same messages (`Fault.chain_injective`), so these say all there is to an error.
-/

namespace Lox.Settings

open Text

variable {lookup : Lookup} {name : String} {v : Variable} {fault : Fault}

/-! ## What a variable says -/

/-- A variable of text sets the text in it without the white space around it, or leaves the default if it is
unset. -/
inductive SetsText (lookup : Lookup) (name default : String) : String → Prop
  | unset (h : lookup name = none) : SetsText lookup name default default
  | text {text core : String} (h : lookup name = some text.toUTF8) (htrims : Trims text.toList core.toList) :
    SetsText lookup name default core

/-- A variable of a size sets the size in it, with white space around it or none, or leaves the default if it is
unset. -/
inductive SetsSize (lookup : Lookup) (name : String) (default : Nat) : Nat → Prop
  | unset (h : lookup name = none) : SetsSize lookup name default default
  | size {text : String} {core : List Char} {n : Nat} (h : lookup name = some text.toUTF8)
    (htrims : Trims text.toList core) (hsize : IsSize core n) : SetsSize lookup name default n

/-- A variable holds bytes that are not UTF-8, and is refused with a message that names it. -/
inductive RefusedText (lookup : Lookup) (name : String) : List String → Prop
  | notUnicode {bytes : ByteArray} (h : lookup name = some bytes)
    (hbytes : ¬∃ text : String, bytes = text.toUTF8) : RefusedText lookup name [name ++ " is not valid unicode"]

/-- The message for a text that is no size. -/
inductive Tells : SizeFault → String → Prop
  | empty : Tells .empty "cannot parse integer from empty string"
  | invalidDigit : Tells .invalidDigit "invalid digit found in string"
  | tooLarge : Tells .tooLarge "number too large to fit in target type"

/-- A variable of a size holds none. It is refused with a message that names it and quotes its text as it was
found, and with another one for the first failure in the text. -/
inductive RefusedSize (lookup : Lookup) (name : String) : List String → Prop
  | notText {chain : List String} (h : RefusedText lookup name chain) : RefusedSize lookup name chain
  | notSize {text quotes message : String} {core : List Char} {cause : SizeFault}
    (h : lookup name = some text.toUTF8) (hquotes : Quotes text quotes) (htrims : Trims text.toList core)
    (hcause : NoSize core cause) (hmessage : Tells cause message) :
    RefusedSize lookup name ["invalid value for " ++ name ++ ": " ++ quotes, message]

/-! ## Messages -/

theorem tells_iff {cause : SizeFault} {message : String} : Tells cause message ↔ message = cause.message := by
  constructor
  · intro h
    cases h <;> rfl
  · rintro rfl
    cases cause
    exacts [.empty, .invalidDigit, .tooLarge]

theorem message_injective : Function.Injective SizeFault.message := by
  intro cause cause' h
  cases cause <;> cases cause' <;> first | rfl | exact absurd h (by decide)

theorem name_injective : Function.Injective Variable.name := by
  intro v w h
  cases v <;> cases w <;> first | rfl | exact absurd h (by decide)

theorem colon_not_mem_name (v : Variable) : ∀ c ∈ v.name.toList, ¬c = ':' := by
  cases v <;> simp [Variable.name]

theorem eq_of_message_notSize_eq {w : Variable} {text text' : String} {cause cause' : SizeFault}
    (h : (Fault.notSize v text cause).message = (Fault.notSize w text' cause').message) : v = w ∧ text = text' := by
  have hcolon (text : String) : ∀ c ∈ (": ".toList ++ (quoted text).toList).head?, c = ':' := by
    intro c hc
    exact (Option.some.inj hc).symm
  have hlist := congrArg String.toList h
  unfold Fault.message at hlist
  simp only [String.toList_append, List.append_assoc] at hlist
  rw [List.append_cancel_left_eq] at hlist
  obtain ⟨hname, hquoted⟩ := eq_of_append_eq (colon_not_mem_name v) (colon_not_mem_name w) (hcolon text)
    (hcolon text') hlist
  rw [List.append_cancel_left_eq] at hquoted
  exact ⟨name_injective (String.toList_inj.mp hname), quoted_injective (String.toList_inj.mp hquoted)⟩

/-- A fault can be told from its messages. -/
theorem Fault.chain_injective : Function.Injective Fault.chain := by
  intro fault fault' h
  cases fault with
  | notUnicode v =>
    cases fault' with
    | notUnicode w =>
      have hname : v.name ++ " is not valid unicode" = w.name ++ " is not valid unicode" := (List.cons.inj h).1
      rw [name_injective (String.append_left_inj _ |>.mp hname)]
    | notSize w text cause => cases (List.cons.inj h).2
  | notSize v text cause =>
    cases fault' with
    | notUnicode w => cases (List.cons.inj h).2
    | notSize w text' cause' =>
      obtain ⟨hmessage, hcause⟩ := List.cons.inj h
      obtain rfl := message_injective (List.cons.inj hcause).1
      obtain ⟨rfl, rfl⟩ := eq_of_message_notSize_eq hmessage
      rfl

/-! ## The text of a variable -/

theorem fromUTF8?_eq_some_iff {bytes : ByteArray} {text : String} :
    String.fromUTF8? bytes = some text ↔ bytes = text.toUTF8 := by
  constructor
  · intro h
    unfold String.fromUTF8? at h
    split at h
    · cases h
      rfl
    · cases h
  · rintro rfl
    exact dif_pos text.isValidUTF8

theorem fromUTF8?_eq_none_iff {bytes : ByteArray} :
    String.fromUTF8? bytes = none ↔ ¬∃ text : String, bytes = text.toUTF8 := by
  rw [Option.eq_none_iff_forall_ne_some]
  simp only [ne_eq, fromUTF8?_eq_some_iff, not_exists]

theorem readText_unset (h : lookup v.name = none) : readText lookup v = .ok none := by
  rw [readText, h]

theorem readText_text {text : String} (h : lookup v.name = some text.toUTF8) :
    readText lookup v = .ok (some text) := by
  rw [readText, h]
  simp only [fromUTF8?_eq_some_iff.mpr rfl]

theorem readText_bytes {bytes : ByteArray} (h : lookup v.name = some bytes)
    (hbytes : ¬∃ text : String, bytes = text.toUTF8) : readText lookup v = .error (.notUnicode v) := by
  rw [readText, h]
  simp only [fromUTF8?_eq_none_iff.mpr hbytes]

/-- A variable is unset, or holds a text, or holds bytes that are none. -/
theorem variable_cases (lookup : Lookup) (name : String) :
    lookup name = none ∨ (∃ text : String, lookup name = some text.toUTF8) ∨
      ∃ bytes, lookup name = some bytes ∧ ¬∃ text : String, bytes = text.toUTF8 := by
  cases hbytes : lookup name with
  | none => exact .inl rfl
  | some bytes =>
    by_cases htext : ∃ text : String, bytes = text.toUTF8
    · obtain ⟨text, rfl⟩ := htext
      exact .inr (.inl ⟨text, rfl⟩)
    · exact .inr (.inr ⟨bytes, rfl, htext⟩)

theorem exists_setsText {default text : String} (h : lookup name = some text.toUTF8) :
    ∃ filter, SetsText lookup name default filter := by
  refine ⟨String.ofList (trim text.toList), .text h ?_⟩
  rw [String.toList_ofList]
  exact trims_trim text.toList

/-! ## One variable -/

theorem SetsText.readFilter {default filter : String} (h : SetsText lookup v.name default filter) :
    readFilter lookup v default = .ok filter := by
  cases h with
  | unset h =>
    rw [Settings.readFilter, readText_unset h]
    rfl
  | text h htrims =>
    rw [Settings.readFilter, readText_text h]
    show Except.ok (String.ofList (trim _)) = _
    rw [trim_eq_iff.mpr htrims, String.ofList_toList]

theorem RefusedText.readText (h : RefusedText lookup v.name fault.chain) :
    readText lookup v = .error fault := by
  generalize hchain : fault.chain = chain at h
  cases h with
  | notUnicode h hbytes =>
    rw [readText_bytes h hbytes]
    exact congrArg Except.error (Fault.chain_injective hchain.symm)

theorem readFilter_eq_iff (lookup : Lookup) (v : Variable) (default : String) :
    (∀ filter, readFilter lookup v default = .ok filter ↔ SetsText lookup v.name default filter) ∧
      ∀ fault, readFilter lookup v default = .error fault ↔ RefusedText lookup v.name fault.chain := by
  refine eq_iff_of_cases (fun _ => SetsText.readFilter) (fun fault h => ?_) ?_
  · rw [readFilter, h.readText]
    rfl
  · obtain h | ⟨text, h⟩ | ⟨bytes, h, hbytes⟩ := variable_cases lookup v.name
    · exact .inl ⟨_, .unset h⟩
    · exact .inl (exists_setsText h)
    · exact .inr ⟨.notUnicode v, .notUnicode h hbytes⟩

theorem readSize_text {text : String} {core : List Char} (h : lookup v.name = some text.toUTF8)
    (htrims : Trims text.toList core) (default : Nat) :
    readSize lookup v default = (Text.readSize core).mapError (.notSize v text) := by
  rw [readSize, readText_text h, ← trim_eq_iff.mpr htrims]
  rfl

theorem SetsSize.readSize {default n : Nat} (h : SetsSize lookup v.name default n) :
    readSize lookup v default = .ok n := by
  cases h with
  | unset h =>
    rw [Settings.readSize, readText_unset h]
    rfl
  | size h htrims hsize =>
    rw [readSize_text h htrims, ((readSize_eq_iff _).1 n).mpr hsize]
    rfl

theorem RefusedSize.readSize (h : RefusedSize lookup v.name fault.chain) (default : Nat) :
    readSize lookup v default = .error fault := by
  generalize hchain : fault.chain = chain at h
  cases h with
  | notText h =>
    subst hchain
    rw [Settings.readSize, h.readText]
    rfl
  | @notSize text quotes message core cause h hquotes htrims hcause hmessage =>
    obtain rfl := quotes_iff.mp hquotes
    obtain rfl := tells_iff.mp hmessage
    have hfault : Fault.notSize v text cause = fault := Fault.chain_injective hchain.symm
    rw [readSize_text h htrims, ((readSize_eq_iff _).2 cause).mpr hcause, ← hfault]
    rfl

theorem readSize_variable_eq_iff (lookup : Lookup) (v : Variable) (default : Nat) :
    (∀ n, readSize lookup v default = .ok n ↔ SetsSize lookup v.name default n) ∧
      ∀ fault, readSize lookup v default = .error fault ↔ RefusedSize lookup v.name fault.chain := by
  refine eq_iff_of_cases (fun _ => SetsSize.readSize) (fun _ h => h.readSize default) ?_
  obtain h | ⟨text, h⟩ | ⟨bytes, h, hbytes⟩ := variable_cases lookup v.name
  · exact .inl ⟨_, .unset h⟩
  · have htrims := trims_trim text.toList
    obtain ⟨n, hsize⟩ | ⟨cause, hcause⟩ := isSize_or_noSize (trim text.toList)
    · exact .inl ⟨n, .size h htrims hsize⟩
    · exact .inr ⟨.notSize v text cause, .notSize h (quotes_iff.mpr rfl) htrims hcause (tells_iff.mpr rfl)⟩
  · exact .inr ⟨.notUnicode v, .notText (.notUnicode h hbytes)⟩

theorem exists_setsText_iff {default : String} :
    (∃ filter, SetsText lookup name default filter) ↔
      ∀ bytes, lookup name = some bytes → ∃ text : String, bytes = text.toUTF8 := by
  constructor
  · rintro ⟨_, h | ⟨h, -⟩⟩ bytes hbytes
    · rw [h] at hbytes
      cases hbytes
    · rw [h] at hbytes
      exact ⟨_, (Option.some.inj hbytes).symm⟩
  · intro htexts
    obtain h | ⟨text, h⟩ | ⟨bytes, h, hbytes⟩ := variable_cases lookup name
    · exact ⟨_, .unset h⟩
    · exact exists_setsText h
    · exact absurd (htexts bytes h) hbytes

theorem exists_setsSize_iff {default : Nat} :
    (∃ n, SetsSize lookup name default n) ↔
      (∀ bytes, lookup name = some bytes → ∃ text : String, bytes = text.toUTF8) ∧
        ∀ (text : String) core, lookup name = some text.toUTF8 → Trims text.toList core → ∃ n, IsSize core n := by
  constructor
  · rintro ⟨n, h | ⟨h, htrims, hsize⟩⟩
    · simp [h]
    · simp only [h, Option.some.injEq]
      refine ⟨fun bytes hbytes => ⟨_, hbytes.symm⟩, fun text core htext htrims' => ⟨n, ?_⟩⟩
      obtain rfl := String.toByteArray_inj.mp htext
      rwa [← trim_eq_iff.mpr htrims', trim_eq_iff.mpr htrims]
  · rintro ⟨htexts, hsizes⟩
    obtain h | ⟨text, h⟩ | ⟨bytes, h, hbytes⟩ := variable_cases lookup name
    · exact ⟨_, .unset h⟩
    · obtain ⟨n, hsize⟩ := hsizes text _ h (trims_trim text.toList)
      exact ⟨n, .size h (trims_trim text.toList) hsize⟩
    · exact absurd (htexts bytes h) hbytes

/-! ## All variables -/

theorem bind_eq_ok_iff {ε α β : Type} {x : Except ε α} {f : α → Except ε β} {b : β} :
    x >>= f = .ok b ↔ ∃ a, x = .ok a ∧ f a = .ok b := by
  cases x with
  | error e => exact ⟨nofun, nofun⟩
  | ok a =>
    have hbind : Except.ok a >>= f = f a := rfl
    simp [hbind]

theorem bind_eq_error_iff {ε α β : Type} {x : Except ε α} {f : α → Except ε β} {e : ε} :
    x >>= f = .error e ↔ x = .error e ∨ ∃ a, x = .ok a ∧ f a = .error e := by
  cases x with
  | error e' =>
    have hbind : Except.error e' >>= f = .error e' := rfl
    simp [hbind]
  | ok a =>
    have hbind : Except.ok a >>= f = f a := rfl
    simp [hbind]

theorem ofLookup_eq_ok_iff {s : Settings} :
    ofLookup lookup = .ok s ↔ readFilter lookup .logFilter "warn" = .ok s.logFilter ∧
      readSize lookup .redZone (100 * 1024) = .ok s.redZone ∧
        readSize lookup .growth (1024 * 1024) = .ok s.growth := by
  simp only [ofLookup, bind_eq_ok_iff]
  constructor
  · rintro ⟨_, hlog, _, hred, _, hgrowth, ⟨⟩⟩
    exact ⟨hlog, hred, hgrowth⟩
  · rintro ⟨hlog, hred, hgrowth⟩
    exact ⟨_, hlog, _, hred, _, hgrowth, rfl⟩

theorem ofLookup_eq_error_iff :
    ofLookup lookup = .error fault ↔ readFilter lookup .logFilter "warn" = .error fault ∨
      (∃ filter, readFilter lookup .logFilter "warn" = .ok filter) ∧
        (readSize lookup .redZone (100 * 1024) = .error fault ∨
          (∃ n, readSize lookup .redZone (100 * 1024) = .ok n) ∧
            readSize lookup .growth (1024 * 1024) = .error fault) := by
  have hpure (s : Settings) : pure s = (.error fault : Except Fault Settings) ↔ False := ⟨nofun, nofun⟩
  simp only [ofLookup, bind_eq_error_iff, hpure, and_false, exists_false, or_false, exists_and_right]

/-- **The settings are read from just the right variables, and the first bad one is blamed.**

Settings are read if and only if each variable is unset or UTF-8, and both sizes, without the white space around
them, are written in decimal digits, after a plus sign or none, with a value below `2 ^ 64`. Then they are what
the variables say, and an unset variable leaves the default. Otherwise the error is that of the first variable
that is refused, whatever later ones hold: its bytes are not UTF-8, or its text is no size for the failure that
comes first in it. The message names the variable, and quotes its text with the white space. -/
theorem ofLookup_reads (lookup : Lookup) :
    (∀ s, ofLookup lookup = .ok s ↔ SetsText lookup "LOXIDE_LOG" "warn" s.logFilter ∧
        SetsSize lookup "LOXIDE_STACK_RED_ZONE" (100 * 1024) s.redZone ∧
          SetsSize lookup "LOXIDE_STACK_GROWTH" (1024 * 1024) s.growth) ∧
      ((∃ s, ofLookup lookup = .ok s) ↔
        (∀ name ∈ ["LOXIDE_LOG", "LOXIDE_STACK_RED_ZONE", "LOXIDE_STACK_GROWTH"],
          ∀ bytes, lookup name = some bytes → ∃ text : String, bytes = text.toUTF8) ∧
          ∀ name ∈ ["LOXIDE_STACK_RED_ZONE", "LOXIDE_STACK_GROWTH"], ∀ (text : String) core,
            lookup name = some text.toUTF8 → Trims text.toList core → ∃ n, IsSize core n) ∧
      ∀ fault, ofLookup lookup = .error fault ↔ RefusedText lookup "LOXIDE_LOG" fault.chain ∨
        (∃ filter, SetsText lookup "LOXIDE_LOG" "warn" filter) ∧
          (RefusedSize lookup "LOXIDE_STACK_RED_ZONE" fault.chain ∨
            (∃ n, SetsSize lookup "LOXIDE_STACK_RED_ZONE" (100 * 1024) n) ∧
              RefusedSize lookup "LOXIDE_STACK_GROWTH" fault.chain) := by
  obtain ⟨hfilter, hbadFilter⟩ := readFilter_eq_iff lookup .logFilter "warn"
  obtain ⟨hred, hbadRed⟩ := readSize_variable_eq_iff lookup .redZone (100 * 1024)
  obtain ⟨hgrowth, hbadGrowth⟩ := readSize_variable_eq_iff lookup .growth (1024 * 1024)
  have hok (s : Settings) : ofLookup lookup = .ok s ↔ SetsText lookup "LOXIDE_LOG" "warn" s.logFilter ∧
      SetsSize lookup "LOXIDE_STACK_RED_ZONE" (100 * 1024) s.redZone ∧
        SetsSize lookup "LOXIDE_STACK_GROWTH" (1024 * 1024) s.growth := by
    rw [ofLookup_eq_ok_iff, hfilter, hred, hgrowth]
    rfl
  refine ⟨hok, ?_, fun fault => ?_⟩
  · have hexists : (∃ s, ofLookup lookup = .ok s) ↔ (∃ filter, SetsText lookup "LOXIDE_LOG" "warn" filter) ∧
        (∃ n, SetsSize lookup "LOXIDE_STACK_RED_ZONE" (100 * 1024) n) ∧
          ∃ n, SetsSize lookup "LOXIDE_STACK_GROWTH" (1024 * 1024) n := by
      simp only [hok]
      exact ⟨fun ⟨s, hlog, hred, hgrowth⟩ => ⟨⟨_, hlog⟩, ⟨_, hred⟩, ⟨_, hgrowth⟩⟩,
        fun ⟨⟨_, hlog⟩, ⟨_, hred⟩, ⟨_, hgrowth⟩⟩ => ⟨⟨_, _, _⟩, hlog, hred, hgrowth⟩⟩
    rw [hexists, exists_setsText_iff, exists_setsSize_iff, exists_setsSize_iff]
    simp only [List.forall_mem_cons, List.not_mem_nil, false_imp_iff, implies_true, and_true]
    tauto
  · rw [ofLookup_eq_error_iff, hbadFilter, hbadRed, hbadGrowth]
    simp only [hfilter, hred]
    rfl

/-- Only the first bad variable is blamed, though a later one is bad as well. -/
example : (ofLookup fun name => match name with
      | "LOXIDE_STACK_RED_ZONE" => some " 1\"".toUTF8
      | "LOXIDE_STACK_GROWTH" => some "".toUTF8
      | _ => none).mapError Fault.chain =
    .error ["invalid value for LOXIDE_STACK_RED_ZONE: \" 1\\\"\"", "invalid digit found in string"] := by
  decide +kernel

end Lox.Settings
