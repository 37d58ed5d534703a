import ConsentGate.Bidder.Text
import ConsentGate.Proofs.Settings.Rejection
import ConsentGate.Roster
import Mathlib.Control.Monad.Basic

/-!
# Naming bidders

A text names a bidder in one of two ways: by a code alone, where it has no colon, or by a code and a
vendor id with a colon between them. Blank characters around either part do not belong to it. So a
code can be named exactly if it has at least one character, no colon, and no blank character at
either end; every other code is beyond what a text can name, although the settings may map it to a
vendor id.

Results:

* `Bidder.ofText_eq_ok_iff`: exactly the texts that name a bidder are read.
* `Bidder.Names.nameable`: a code that is read can be named.
* `Bidder.ofText_toText_iff`: exactly the bidders whose code can be named are read back.
* `Bidder.ofText_names`: these, and what naming a code of the settings selects.
-/

namespace ConsentGate.Bidder

/-- A code that a text can name. -/
structure Nameable (code : String) : Prop where
  nonempty : code ≠ ""
  noColon : ':' ∉ code.toList
  trimmed : Text.IsTrimmed code.toList

/-- A text names a bidder. -/
inductive Names (text : String) : Bidder → Prop
  /-- By its code. -/
  | code {code : String} (noColon : ':' ∉ text.toList) (notBlank : ¬ Text.IsBlank text)
    (trims : Text.TrimsTo text.toList code.toList) : Names text ⟨code, none⟩
  /-- By its code before the first colon, and by the number behind it. -/
  | codeAndVendor {first second code : String} {sign digits : List Char}
    (split : text = first ++ ":" ++ second) (noColon : ':' ∉ first.toList)
    (notBlank : ¬ Text.IsBlank first) (trims : Text.TrimsTo first.toList code.toList)
    (number : Text.TrimsTo second.toList (sign ++ digits)) (plus : sign = [] ∨ sign = ['+'])
    (decimal : Decimal.IsDigits digits) (bound : Nat.ofDigitChars 10 digits 0 ≤ 4294967295) :
    Names text ⟨code, some (.ofNat (Nat.ofDigitChars 10 digits 0))⟩

/-! ## The first colon -/

theorem noColon_iff {s : List Char} : ':' ∉ s ↔ ∀ c ∈ s, decide (c ≠ ':') = true := by
  simp only [decide_eq_true_eq]
  exact ⟨fun h c hc heq => h (heq ▸ hc), fun h hmem => h ':' hmem rfl⟩

theorem takeWhile_firstColon {first second : List Char} (h : ':' ∉ first) :
    (first ++ ':' :: second).takeWhile (· ≠ ':') = first :=
  Text.takeWhile_append_of_stops (noColon_iff.1 h) (by rintro _ ⟨⟩; rfl)

theorem dropWhile_firstColon {first second : List Char} (h : ':' ∉ first) :
    (first ++ ':' :: second).dropWhile (· ≠ ':') = ':' :: second :=
  Text.dropWhile_append_of_stops (noColon_iff.1 h) (by rintro _ ⟨⟩; rfl)

/-- A text has no colon, or a first one. -/
theorem firstColon (s : List Char) :
    ':' ∉ s ∨ ∃ first second, s = first ++ ':' :: second ∧ ':' ∉ first := by
  by_cases h : ':' ∈ s
  · obtain ⟨first, second, hsplit, hfirst⟩ := List.eq_append_cons_of_mem h
    exact .inr ⟨first, second, hsplit, hfirst⟩
  · exact .inl h

theorem codeOf_of_noColon {text : String} (h : ':' ∉ text.toList) :
    codeOf text = Text.trim text.toList := by
  have hall : (text.toList ++ []).takeWhile (· ≠ ':') = text.toList :=
    Text.takeWhile_append_of_stops (noColon_iff.1 h) nofun
  rw [List.append_nil] at hall
  rw [codeOf, hall]

theorem vendorOf_of_noColon {text : String} (h : ':' ∉ text.toList) : vendorOf text = .ok none := by
  rw [vendorOf, Text.dropWhile_eq_nil_iff.2 (noColon_iff.1 h)]

theorem codeOf_of_split {text : String} {first second : List Char}
    (hsplit : text.toList = first ++ ':' :: second) (h : ':' ∉ first) :
    codeOf text = Text.trim first := by
  rw [codeOf, hsplit, takeWhile_firstColon h]

theorem vendorOf_of_split {text : String} {first second : List Char}
    (hsplit : text.toList = first ++ ':' :: second) (h : ':' ∉ first) {vendor : Option VendorId} :
    vendorOf text = .ok vendor ↔
      ∃ v, Decimal.WritesWord (Text.trim second) v ∧ some v = vendor := by
  have hvendor : vendorOf text =
      some <$> (Decimal.readWord (Text.trim second)).mapError (.vendor text) := by
    rw [vendorOf, hsplit, dropWhile_firstColon h]
    rfl
  simp only [hvendor, map_eq_ok, mapError_eq_ok, Decimal.readWord_eq_ok_iff]

/-- A bidder is read if both parts of it are. -/
theorem ofText_eq_ok_iff_parts {text : String} {b : Bidder} :
    ofText text = .ok b ↔
      vendorOf text = .ok b.vendor ∧ codeOf text = b.code.toList ∧ b.code ≠ "" := by
  unfold ofText
  rw [bind_eq_ok]
  constructor
  · rintro ⟨vendor, hvendor, hcode⟩
    split at hcode
    · cases hcode
    · rename_i hne
      cases hcode
      exact ⟨hvendor, (String.toList_ofList).symm, by simpa using hne⟩
  · rintro ⟨hvendor, hcode, hne⟩
    refine ⟨b.vendor, hvendor, ?_⟩
    rw [hcode]
    split
    · rename_i hnil
      exact absurd (String.toList_eq_nil_iff.1 hnil) hne
    · rw [String.ofList_toList]

/-! ## What is read -/

theorem nonempty_of_trimsTo {s : List Char} {code : String} (h : Text.TrimsTo s code.toList) :
    code ≠ "" ↔ ¬ ∀ c ∈ s, Text.isBlank c = true := by
  rw [← Text.trim_eq_nil_iff, Text.trim_eq_iff.2 h, String.toList_eq_nil_iff]

/-- Exactly the texts that name a bidder are read. -/
theorem ofText_eq_ok_iff {text : String} {b : Bidder} : ofText text = .ok b ↔ Names text b := by
  rw [ofText_eq_ok_iff_parts]
  constructor
  · rintro ⟨hvendor, hcode, hne⟩
    obtain ⟨code, vendor⟩ := b
    rcases firstColon text.toList with hcolon | ⟨first, second, hsplit, hcolon⟩
    · rw [codeOf_of_noColon hcolon, Text.trim_eq_iff] at hcode
      obtain rfl : none = vendor := Except.ok.inj ((vendorOf_of_noColon hcolon).symm.trans hvendor)
      exact .code hcolon ((nonempty_of_trimsTo hcode).1 hne) hcode
    · rw [codeOf_of_split hsplit hcolon, Text.trim_eq_iff] at hcode
      obtain ⟨v, ⟨sign, digits, hnumber, hsign, hdigits, hvalue⟩, rfl⟩ :=
        (vendorOf_of_split hsplit hcolon).1 hvendor
      have hbound : Nat.ofDigitChars 10 digits 0 ≤ 4294967295 := by
        rw [hvalue]
        exact Nat.le_of_lt_succ v.toNat_lt
      obtain rfl : .ofNat (Nat.ofDigitChars 10 digits 0) = v := by
        rw [hvalue, UInt32.ofNat_toNat]
      have htext : text = .ofList first ++ ":" ++ .ofList second := by
        apply String.toList_injective
        simpa using hsplit
      refine .codeAndVendor htext ?_ ?_ ?_ ?_ hsign hdigits hbound
      · rwa [String.toList_ofList]
      · rw [Text.IsBlank, String.toList_ofList]
        exact (nonempty_of_trimsTo hcode).1 hne
      · rwa [String.toList_ofList]
      · rw [String.toList_ofList, ← Text.trim_eq_iff, hnumber]
  · rintro (⟨hcolon, hblank, htrims⟩ |
      ⟨rfl, hcolon, hblank, htrims, hnumber, hsign, hdigits, hbound⟩)
    · exact ⟨vendorOf_of_noColon hcolon,
        (codeOf_of_noColon hcolon).trans (Text.trim_eq_iff.2 htrims),
        (nonempty_of_trimsTo htrims).2 hblank⟩
    · rename_i first second code sign digits
      have hsplit : (first ++ ":" ++ second).toList = first.toList ++ ':' :: second.toList := by
        simp
      refine ⟨(vendorOf_of_split hsplit hcolon).2 ⟨_, ?_, rfl⟩,
        (codeOf_of_split hsplit hcolon).trans (Text.trim_eq_iff.2 htrims),
        (nonempty_of_trimsTo htrims).2 hblank⟩
      rw [Text.trim_eq_iff.2 hnumber]
      exact ⟨sign, digits, rfl, hsign, hdigits,
        (UInt32.toNat_ofNat_of_lt' (Nat.lt_succ_of_le hbound)).symm⟩

/-- A code that is read can be named. -/
theorem Names.nameable {text : String} {b : Bidder} (h : Names text b) : Nameable b.code := by
  have hcode {s : List Char} {code : String} (hcolon : ':' ∉ s)
      (hblank : ¬ ∀ c ∈ s, Text.isBlank c = true) (htrims : Text.TrimsTo s code.toList) :
      Nameable code := by
    refine ⟨(nonempty_of_trimsTo htrims).2 hblank, fun hmem => hcolon ?_, ?_⟩
    · obtain ⟨before, after, rfl, -⟩ := htrims
      simp [hmem]
    · obtain ⟨_, _, -, -, -, htrimmed⟩ := htrims
      exact htrimmed
  cases h with
  | code noColon notBlank trims => exact hcode noColon notBlank trims
  | codeAndVendor split noColon notBlank trims => exact hcode noColon notBlank trims

/-! ## What is read back -/

theorem trimsTo_self {s : List Char} (h : Text.IsTrimmed s) : Text.TrimsTo s s :=
  ⟨[], [], by simp, nofun, nofun, h⟩

/-- A code that can be named is not blank. -/
theorem Nameable.notBlank {code : String} (h : Nameable code) : ¬ Text.IsBlank code :=
  (nonempty_of_trimsTo (trimsTo_self h.trimmed)).1 h.nonempty

/-- No digit is blank. -/
theorem isTrimmed_of_isDigits {s : List Char} (h : Decimal.IsDigits s) : Text.IsTrimmed s := by
  have hdigit (c : Char) (hc : c ∈ s) : Text.isBlank c = false := by
    have hrange := h.2 c hc
    simp only [Char.isDigit, Bool.and_eq_true, decide_eq_true_eq] at hrange
    have hlow : 48 ≤ c.toNat := hrange.1
    have hhigh : c.toNat ≤ 57 := hrange.2
    cases hblank : Text.isBlank c with
    | false => rfl
    | true =>
      simp only [Text.isBlank, Bool.or_eq_true, Bool.and_eq_true, decide_eq_true_eq,
        beq_iff_eq] at hblank
      omega
  exact ⟨fun c hc => hdigit c (List.mem_of_mem_head? hc),
    fun c hc => hdigit c (List.mem_of_getLast? hc)⟩

/-- The text of a bidder whose code can be named names the bidder. -/
theorem Nameable.names {b : Bidder} (h : Nameable b.code) : Names b.toText b := by
  obtain ⟨code, vendor⟩ := b
  cases vendor with
  | none => exact .code h.noColon h.notBlank (trimsTo_self h.trimmed)
  | some v =>
    have hdigits := Decimal.isDigits_toDigits v.toNat
    have hvalue : Nat.ofDigitChars 10 (Nat.toDigits 10 v.toNat) 0 = v.toNat :=
      Nat.ofDigitChars_ten_toDigits
    have hnumber : Text.TrimsTo (toString v.toNat).toList ([] ++ Nat.toDigits 10 v.toNat) := by
      rw [Nat.toString_eq_ofList_toDigits, String.toList_ofList, List.nil_append]
      exact trimsTo_self (isTrimmed_of_isDigits hdigits)
    have hbound : Nat.ofDigitChars 10 (Nat.toDigits 10 v.toNat) 0 ≤ 4294967295 := by
      rw [hvalue]
      exact Nat.le_of_lt_succ v.toNat_lt
    have hnames : Names (toText ⟨code, some v⟩)
        ⟨code, some (.ofNat (Nat.ofDigitChars 10 (Nat.toDigits 10 v.toNat) 0))⟩ :=
      .codeAndVendor rfl h.noColon h.notBlank (trimsTo_self h.trimmed) hnumber (.inl rfl) hdigits
        hbound
    rwa [hvalue, UInt32.ofNat_toNat] at hnames

/-- Exactly the bidders whose code can be named are read back from their text. -/
theorem ofText_toText_iff {b : Bidder} : ofText b.toText = .ok b ↔ Nameable b.code := by
  rw [ofText_eq_ok_iff]
  exact ⟨Names.nameable, Nameable.names⟩

/-! ## Codes of the settings -/

theorem roster_singleton (policy : Policy) (b : Bidder) :
    policy.roster [b] = [policy.register b] := rfl

/-- What names its own code, among the codes that the policy maps to a vendor id, selects it with
this id. -/
theorem roster_of_mapped {policy : Policy} {code : String} {v : VendorId}
    (h : policy.bidders.find? code = some v) :
    policy.roster [⟨code, none⟩] = [⟨code, some v⟩] := by
  rw [roster_singleton, Policy.register, h, Option.none_or]

/-- Exactly the texts of the grammar are read as bidders; the code of a bidder that is read can be
named; and exactly the bidders whose code can be named are read back from their text. So a code of
settings that are loaded selects itself, with the vendor id that it is mapped to, exactly if it has
no colon and no blank character at either end; any other is rejected or selects another code. -/
theorem ofText_names :
    (∀ text b, ofText text = .ok b ↔ Names text b) ∧
    (∀ text b, ofText text = .ok b → Nameable b.code) ∧
    (∀ b : Bidder, ofText b.toText = .ok b ↔ Nameable b.code) ∧
    ∀ text environment policy, Settings.load text environment = .ok policy →
      ∀ code v, policy.bidders.find? code = some v →
        ((∃ b, ofText code = .ok b ∧ policy.roster [b] = [⟨code, some v⟩]) ↔
          ':' ∉ code.toList ∧ Text.IsTrimmed code.toList) ∧
        (¬ (':' ∉ code.toList ∧ Text.IsTrimmed code.toList) →
          ∀ b, ofText code = .ok b → b.code ≠ code) := by
  have hread {text : String} {b : Bidder} (h : ofText text = .ok b) : Nameable b.code :=
    (ofText_eq_ok_iff.1 h).nameable
  refine ⟨fun _ _ => ofText_eq_ok_iff, fun _ _ => hread, fun _ => ofText_toText_iff, ?_⟩
  intro text environment policy hload code v hmapped
  obtain ⟨_, -, -, hvalid⟩ := Settings.load_eq_ok_iff.1 hload
  have hblank : ¬ Text.IsBlank code :=
    namesSomebody_iff.1 ((Policy.valid_iff.1 hvalid).bidders code v hmapped)
  constructor
  · constructor
    · rintro ⟨b, hb, hroster⟩
      obtain rfl : b.code = code := congrArg Bidder.code (List.cons.inj hroster).1
      exact ⟨(hread hb).noColon, (hread hb).trimmed⟩
    · rintro ⟨hcolon, htrimmed⟩
      have hnameable : Nameable code :=
        ⟨(nonempty_of_trimsTo (trimsTo_self htrimmed)).2 hblank, hcolon, htrimmed⟩
      have hself : ofText (toText ⟨code, none⟩) = .ok ⟨code, none⟩ := ofText_toText_iff.2 hnameable
      exact ⟨⟨code, none⟩, hself, roster_of_mapped hmapped⟩
  · rintro hother b hb rfl
    exact hother ⟨(hread hb).noColon, (hread hb).trimmed⟩

/-- Settings that map three codes, two of which no text can name. -/
def mappedText : String := "[gdpr.bidders]\nrubicon = 52\n\"a:7\" = 1\n\" house\" = 2\n"

/-- The first code selects itself, the second names vendor 7 of another code, and the third names a
code without its blank; so do blanks, a plus sign and zeros around a code and its id. -/
theorem ofText_names_mappedText :
    (∃ policy, Settings.load mappedText [] = .ok policy ∧
      policy.bidders.find? "a:7" = some 1 ∧
      (∃ b, ofText "rubicon" = .ok b ∧ policy.roster [b] = [⟨"rubicon", some 52⟩]) ∧
      (∀ b, ofText "a:7" = .ok b → b.code ≠ "a:7") ∧
      ∀ b, ofText " house" = .ok b → b.code ≠ " house") ∧
    ofText "a:7" = .ok ⟨"a", some 7⟩ ∧ ofText " house" = .ok ⟨"house", none⟩ ∧
    Names "\trubicon : +0052" ⟨"rubicon", some 52⟩ := by
  have hload : Settings.load mappedText [] = .ok
      { bidders := .ofList [("rubicon", 52), ("a:7", 1), (" house", 2)] } := by
    decide +kernel
  obtain ⟨hnames, -, -, hmapped⟩ := ofText_names
  have hcodes := hmapped mappedText [] _ hload
  refine ⟨⟨_, hload, by decide +kernel, ?_, ?_, ?_⟩, by decide +kernel, by decide +kernel, ?_⟩
  · exact (hcodes "rubicon" 52 (by decide +kernel)).1.2 (by decide +kernel)
  · exact (hcodes "a:7" 1 (by decide +kernel)).2 (by decide +kernel)
  · exact (hcodes " house" 2 (by decide +kernel)).2 (by decide +kernel)
  · rw [← hnames]
    decide +kernel

end ConsentGate.Bidder
