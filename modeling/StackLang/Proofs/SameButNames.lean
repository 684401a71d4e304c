import StackLang.Assembly
import StackLang.Proofs.Renaming
import StackLang.Service.Reply

/-!
# Messages that are the same but for names

A message may name files, and files may have names that were drawn for the occasion. This file says
when two texts are the same but for such names: they agree character by character, except where one
of them has a name and the other one has the name in its place.

Messages do more with a path than to repeat it. They show it between quotes, which depends on all of
its characters, and they strip the blanks around what a tool has written. Names whose characters all
show as themselves get through both unchanged, so texts that are the same but for such names lead to
messages that are the same but for them.

## Main definitions

* `Text.SameBut` — texts that are the same but for names
* `Text.ShowsAsItself` — names that messages do not alter
* `Fault.SameBut` — faults that are told alike

## Main results

* `Text.SameBut.quoted`, `Text.SameBut.strip` — texts between quotes, and without blanks around them
* `ToolReport.SameBut.message` — what is said about a tool
* `Fault.sameBut_ofFile` — what is said about a file
-/

namespace StackLang

namespace Text

/-- The texts are the same but for names: where the one has a name, the other may have the name in
its place. -/
inductive SameBut (N : List Char → List Char → Prop) : List Char → List Char → Prop
  | nil : SameBut N [] []
  | char (c : Char) {s t : List Char} (h : SameBut N s t) : SameBut N (c :: s) (c :: t)
  | name {n m s t : List Char} (hn : N n m) (h : SameBut N s t) : SameBut N (n ++ s) (m ++ t)

/-- A character that shows as itself between quotes of either kind, and is no blank. -/
def isPlain (c : Char) : Bool :=
  escapeIn apostrophe c = [c] && escapeIn quotationMark c = [c] && !isBlank c

theorem escapeIn_self (mark : Char) : escapeIn mark mark = ['\\', mark] := by simp [escapeIn]

theorem isPlain_apostrophe : isPlain apostrophe = false := by simp [isPlain, escapeIn_self]

theorem isPlain_quotationMark : isPlain quotationMark = false := by simp [isPlain, escapeIn_self]

/-- Letters, digits and the dash show as themselves. -/
theorem isPlain_of_isAlphanum {c : Char} (h : c.isAlphanum = true ∨ c = '-') :
    isPlain c = true := by
  have hrange : 0x2D = c.toNat ∨ 0x30 ≤ c.toNat ∧ c.toNat ≤ 0x39 ∨
      0x41 ≤ c.toNat ∧ c.toNat ≤ 0x5A ∨ 0x61 ≤ c.toNat ∧ c.toNat ≤ 0x7A := by
    rcases h with h | rfl
    · change (decide ('A'.val ≤ c.val ∧ c.val ≤ 'Z'.val) ||
        (decide ('a'.val ≤ c.val) && decide (c.val ≤ 'z'.val)) ||
        (decide ('0'.val ≤ c.val) && decide (c.val ≤ '9'.val))) = true at h
      simp only [Bool.or_eq_true, Bool.and_eq_true, decide_eq_true_eq, UInt32.le_iff_toNat_le,
        Char.reduceVal, UInt32.reduceToNat, Char.toNat_val] at h
      omega
    · exact .inl rfl
  have hprintable : isPrintable c = true := by
    rw [isPrintable, inRanges_of_visible (by decide +kernel) (by omega) (by omega)]
    rfl
  have hblank : isBlank c = false :=
    inRanges_of_visible (by decide) (by omega) (by omega)
  have hne : ∀ {d : Char}, d.toNat < 0x2D ∨ d.toNat = 0x5C → c ≠ d := by
    rintro d hd rfl
    omega
  have hescape : ∀ mark : Char, mark.toNat < 0x2D → escapeIn mark c = [c] := by
    intro mark hmark
    simp [escapeIn, hprintable, hne (.inl hmark), hne (d := '\\') (.inr rfl),
      hne (d := '\n') (.inl (by decide)), hne (d := '\r') (.inl (by decide)),
      hne (d := '\t') (.inl (by decide))]
  simp [isPlain, hblank, hescape apostrophe (by decide), hescape quotationMark (by decide)]

/-- A name that messages do not alter. -/
structure ShowsAsItself (name : List Char) : Prop where
  nonempty : name ≠ []
  plain : ∀ c ∈ name, isPlain c = true

/-- All names show as themselves. -/
def Unaltered (N : List Char → List Char → Prop) : Prop :=
  ∀ {n m}, N n m → ShowsAsItself n ∧ ShowsAsItself m

namespace SameBut

variable {N : List Char → List Char → Prop} {s t s' t' : List Char}

theorem refl (N : List Char → List Char → Prop) (s : List Char) : SameBut N s s := by
  induction s with
  | nil => exact .nil
  | cons c s ih => exact .char c ih

theorem append (h : SameBut N s t) (h' : SameBut N s' t') : SameBut N (s ++ s') (t ++ t') := by
  induction h with
  | nil => exact h'
  | char c _ ih => exact .char c ih
  | name hn _ ih =>
    rw [List.append_assoc, List.append_assoc]
    exact .name hn ih

theorem of_name {n m : List Char} (hn : N n m) : SameBut N n m := by
  simpa using SameBut.name hn (.nil)

/-- Read from the end, the texts are the same but for names read from their ends. -/
theorem reverse (h : SameBut N s t) :
    SameBut (fun n m => N n.reverse m.reverse) s.reverse t.reverse := by
  induction h with
  | nil => exact .nil
  | char c _ ih =>
    rw [List.reverse_cons, List.reverse_cons]
    exact ih.append (.refl _ _)
  | name hn _ ih =>
    rw [List.reverse_append, List.reverse_append]
    refine ih.append (of_name ?_)
    simpa using hn

theorem eq_nil_iff (hN : Unaltered N) (h : SameBut N s t) : s = [] ↔ t = [] := by
  cases h with
  | nil => exact Iff.rfl
  | char c _ => simp
  | name hn _ => simp [(hN hn).1.nonempty, (hN hn).2.nonempty]

/-- A character that is not plain is in both texts or in none. -/
theorem contains_eq (hN : Unaltered N) (h : SameBut N s t) {c : Char} (hc : isPlain c = false) :
    s.contains c = t.contains c := by
  have hname : ∀ {n : List Char}, ShowsAsItself n → n.contains c = false := by
    intro n hn
    rw [List.contains_eq_mem, decide_eq_false_iff_not]
    intro hmem
    rw [hn.plain c hmem] at hc
    cases hc
  induction h with
  | nil => rfl
  | char d _ ih => rw [List.contains_cons, List.contains_cons, ih]
  | name hn _ ih =>
    rw [List.contains_eq_mem, List.contains_eq_mem] at ih ⊢
    have hleft := hname (hN hn).1
    have hright := hname (hN hn).2
    simp_all

/-- Plain characters may be treated as any text that is taken character by character treats them. -/
theorem flatMap (hN : Unaltered N) {f : Char → List Char} (hf : ∀ c, isPlain c = true → f c = [c])
    (h : SameBut N s t) : SameBut N (s.flatMap f) (t.flatMap f) := by
  have hplain : ∀ n : List Char, (∀ c ∈ n, isPlain c = true) → n.flatMap f = n := by
    intro n hn
    induction n with
    | nil => rfl
    | cons c n ih =>
      obtain ⟨hc, hrest⟩ := List.forall_mem_cons.mp hn
      rw [List.flatMap_cons, hf c hc, ih hrest]
      rfl
  induction h with
  | nil => exact .nil
  | char c _ ih =>
    rw [List.flatMap_cons, List.flatMap_cons]
    exact (refl N (f c)).append ih
  | name hn _ ih =>
    rw [List.flatMap_append, List.flatMap_append, hplain _ (hN hn).1.plain,
      hplain _ (hN hn).2.plain]
    exact .name hn ih

theorem dropWhile (hN : Unaltered N) (h : SameBut N s t) :
    SameBut N (s.dropWhile isBlank) (t.dropWhile isBlank) := by
  have hname : ∀ {n : List Char} (s : List Char), ShowsAsItself n →
      (n ++ s).dropWhile isBlank = n ++ s := by
    intro n s hn
    obtain ⟨c, cs, rfl⟩ := List.exists_cons_of_ne_nil hn.nonempty
    have hc := hn.plain c List.mem_cons_self
    simp only [isPlain, Bool.and_eq_true, Bool.not_eq_true'] at hc
    rw [List.cons_append, List.dropWhile_cons_of_neg (Bool.eq_false_iff.mp hc.2)]
  induction h with
  | nil => exact .nil
  | @char c s t h ih =>
    cases hc : isBlank c with
    | true => rwa [List.dropWhile_cons_of_pos hc, List.dropWhile_cons_of_pos hc]
    | false =>
      rw [List.dropWhile_cons_of_neg (Bool.eq_false_iff.mp hc),
        List.dropWhile_cons_of_neg (Bool.eq_false_iff.mp hc)]
      exact .char c h
  | name hn h _ =>
    rw [hname _ (hN hn).1, hname _ (hN hn).2]
    exact .name hn h

theorem trim (hN : Unaltered N) (h : SameBut N s t) :
    SameBut N (trim isBlank s) (trim isBlank t) := by
  have hreverse : ∀ {n : List Char}, ShowsAsItself n.reverse → ShowsAsItself n := by
    intro n hn
    exact ⟨fun hnil => hn.nonempty (by rw [hnil, List.reverse_nil]),
      fun c hc => hn.plain c (List.mem_reverse.mpr hc)⟩
  have hN' : Unaltered fun n m => N n.reverse m.reverse :=
    fun hn => ⟨hreverse (hN hn).1, hreverse (hN hn).2⟩
  have hends := ((h.dropWhile hN).reverse.dropWhile hN').reverse
  simp only [List.reverse_reverse] at hends
  exact hends

/-- **Texts without the blanks around them.** -/
theorem strip (hN : Unaltered N) {s t : String} (h : SameBut N s.toList t.toList) :
    SameBut N (strip s).toList (strip t).toList := by
  rw [Text.strip, Text.strip, String.toList_ofList, String.toList_ofList]
  exact h.trim hN

/-- **Texts between quotes.** -/
theorem quoted (hN : Unaltered N) {s t : String} (h : SameBut N s.toList t.toList) :
    SameBut N (quoted s).toList (quoted t).toList := by
  have hmarks : quoteMark s.toList = quoteMark t.toList := by
    rw [quoteMark, quoteMark, h.contains_eq hN isPlain_apostrophe,
      h.contains_eq hN isPlain_quotationMark]
  have hescape : ∀ c, isPlain c = true → escapeIn (quoteMark t.toList) c = [c] := by
    intro c hc
    simp only [isPlain, Bool.and_eq_true, decide_eq_true_eq] at hc
    rw [quoteMark]
    split
    · exact hc.1.2
    · exact hc.1.1
  rw [Text.quoted, Text.quoted, String.toList_ofList, String.toList_ofList, hmarks]
  exact .char _ ((h.flatMap hN hescape).append (.refl N _))

end SameBut

end Text

/-! ## Paths -/

/-- The text of a path ends in its last name, and what stands before it is told by the others. -/
theorem Path.exists_text_concat (anchor : Anchor) (names : List String) :
    ∃ front : String, ∀ name, Path.text ⟨anchor, names ++ [name]⟩ = front ++ name := by
  have hjoined : ∃ front : String, ∀ name, "/".intercalate (names ++ [name]) = front ++ name := by
    induction names with
    | nil => exact ⟨"", fun name => by simp⟩
    | cons n ns ih =>
      obtain ⟨front, hfront⟩ := ih
      refine ⟨n ++ "/" ++ front, fun name => ?_⟩
      obtain ⟨m, ms, hms⟩ := List.exists_cons_of_ne_nil (List.append_ne_nil_of_right_ne_nil ns
        (List.cons_ne_nil name []))
      rw [List.cons_append, hms, String.intercalate_cons_cons, ← hms, hfront]
      simp only [String.append_assoc]
  obtain ⟨front, hfront⟩ := hjoined
  refine ⟨anchor.text ++ front, fun name => ?_⟩
  rw [text, if_neg (by simp), hfront, String.append_assoc]

/-! ## Faults -/

section

variable {N : List Char → List Char → Prop}

theorem OsError.sameBut_message (hN : Text.Unaltered N) (errno : Errno) {path path' : String}
    (h : Text.SameBut N path.toList path'.toList) :
    Text.SameBut N (OsError.mk errno path).message.toList
      (OsError.mk errno path').message.toList := by
  simp only [message, String.toList_append]
  exact (Text.SameBut.refl N _).append (h.quoted hN)

/-- The reports say the same but for names. -/
structure ToolReport.SameBut (N : List Char → List Char → Prop) (r r' : ToolReport) : Prop where
  program : Text.SameBut N r.program.toList r'.program.toList
  returncode : r.returncode = r'.returncode
  signal : r.signal = r'.signal
  stderr : Text.SameBut N r.stderr.toList r'.stderr.toList
  reason : (r.reason = none ∧ r'.reason = none) ∨ ∃ x x', r.reason = some x ∧ r'.reason = some x' ∧
    Text.SameBut N x.toList x'.toList

namespace ToolReport

/-- A reason that is given is given on both sides. -/
theorem SameBut.given (hN : Text.Unaltered N) {r r' : ToolReport} (h : r.SameBut N r') :
    (given? r.reason = none ∧ given? r'.reason = none) ∨
      ∃ x x', given? r.reason = some x ∧ given? r'.reason = some x' ∧
        Text.SameBut N x.toList x'.toList := by
  rcases h.reason with ⟨hr, hr'⟩ | ⟨x, x', hr, hr', hx⟩
  · rw [hr, hr']
    exact .inl ⟨rfl, rfl⟩
  · have hempty : x = "" ↔ x' = "" := by
      rw [← String.toList_eq_nil_iff, ← String.toList_eq_nil_iff]
      exact hx.eq_nil_iff hN
    rw [hr, hr']
    by_cases hx' : x' = ""
    · left
      simp [given?, hempty.mpr hx', hx']
    · right
      refine ⟨x, x', ?_, ?_, hx⟩
      · simp [given?, mt hempty.mp hx']
      · simp [given?, hx']

/-- **What is said about a tool.** -/
theorem SameBut.message (hN : Text.Unaltered N) {r r' : ToolReport} (h : r.SameBut N r') :
    Text.SameBut N r.message.toList r'.message.toList := by
  rw [ToolReport.message, ToolReport.message, ← h.signal]
  rcases h.given hN with ⟨hr, hr'⟩ | ⟨x, x', hr, hr', hx⟩
  · rw [hr, hr']
    cases given? r.signal with
    | some signal =>
      simp only [String.toList_append]
      exact (h.program.append (.refl N _)).append (.refl N _)
    | none =>
      have hstripped := h.stderr.strip hN
      have hempty : Text.strip r.stderr = "" ↔ Text.strip r'.stderr = "" := by
        rw [← String.toList_eq_nil_iff, ← String.toList_eq_nil_iff]
        exact hstripped.eq_nil_iff hN
      dsimp only
      by_cases hblank : Text.strip r'.stderr = ""
      · rw [if_neg (not_not_intro (hempty.mpr hblank)), if_neg (not_not_intro hblank),
          h.returncode]
        simp only [String.toList_append]
        exact (h.program.append (.refl N _)).append (.refl N _)
      · rwa [if_pos (mt hempty.mp hblank), if_pos hblank]
  · rw [hr, hr']
    simp only [String.toList_append]
    exact (h.program.append (.refl N _)).append hx

end ToolReport

namespace Fault

/-- The faults are told alike: they are of one kind, their messages are the same but for names, and
the words of both can be sent or of none. -/
structure SameBut (N : List Char → List Char → Prop) (f f' : Fault) : Prop where
  kind : f.kind? = f'.kind?
  position : f.position? = f'.position?
  status : f.status = f'.status
  message : Text.SameBut N f.message.toList f'.message.toList
  wording : f.wording.text?.isSome = f'.wording.text?.isSome

theorem SameBut.refl (N : List Char → List Char → Prop) (f : Fault) : SameBut N f f :=
  ⟨rfl, rfl, rfl, .refl N _, rfl⟩

theorem SameBut.tool (hN : Text.Unaltered N) {r r' : ToolReport} (h : r.SameBut N r') :
    SameBut N (.tool r) (.tool r') :=
  ⟨rfl, rfl, rfl, h.message hN, by simp [Fault.wording]⟩

theorem message_artifact (action : String) (p : Path) (cause : String) :
    (Fault.artifact action p cause).message =
      "Unable to " ++ action ++ " " ++ p.text ++ " (" ++ cause ++ ")" := rfl

theorem SameBut.artifact (action : String) {p p' : Path} {cause cause' : String}
    (hpath : Text.SameBut N p.text.toList p'.text.toList)
    (hcause : Text.SameBut N cause.toList cause'.toList) :
    SameBut N (.artifact action p cause) (.artifact action p' cause') := by
  refine ⟨rfl, rfl, rfl, ?_, by simp [Fault.wording]⟩
  simp only [message_artifact, String.toList_append]
  exact .append (.append (.append (.append (.refl N _) hpath) (.refl N _)) hcause) (.refl N _)

/-- **What is said about a file.** -/
theorem sameBut_ofFile (hN : Text.Unaltered N) (action : String) {p p' : Path}
    (h : Text.SameBut N p.text.toList p'.text.toList) (why : Option Errno) :
    SameBut N (.ofFile action p (.about p why)) (.ofFile action p' (.about p' why)) := by
  cases why with
  | none => exact .refl N .nul
  | some errno => exact .artifact action h (OsError.sameBut_message hN errno h)

end Fault

end

end StackLang
