import HostRoster.Config
import HostRoster.Config.Fingerprint
import Mathlib.Algebra.Ring.Nat
import Mathlib.Data.List.Basic

/-!
# What a fingerprint tells apart

The bytes that a declaration is spelled with can be read from the front: every text stands behind
its length and every optional text behind a mark, so what comes after cannot run into it. Two
declarations are therefore never spelled alike, and two configurations with one fingerprint differ
in their cluster or their hosts only if two messages that were digested for them have one digest.
-/
namespace HostRoster

/-- On values of this kind, what is written is read back from the front, whatever comes after. -/
def PrefixFree {α β : Type} (valid : α → Prop) (write : α → List β) : Prop :=
  ∀ a b s t, valid a → valid b → write a ++ s = write b ++ t → a = b ∧ s = t

section PrefixFree

variable {α β : Type} {valid : α → Prop} {write : α → List β}

theorem prefixFree_of_length (width : Nat) (length : ∀ a, valid a → (write a).length = width)
    (inj : ∀ a b, valid a → valid b → write a = write b → a = b) : PrefixFree valid write := by
  intro a b s t ha hb same
  obtain ⟨first, rest⟩ := List.append_inj same ((length a ha).trans (length b hb).symm)
  exact ⟨inj a b ha hb first, rest⟩

/-- A list is read back from what its members are written as, one after the other. -/
theorem PrefixFree.flatMap_inj (free : PrefixFree valid write) (some : ∀ a, write a ≠ [])
    {l m : List α} (hl : ∀ a ∈ l, valid a) (hm : ∀ a ∈ m, valid a)
    (same : l.flatMap write = m.flatMap write) : l = m := by
  induction l generalizing m with
  | nil =>
    cases m with
    | nil => rfl
    | cons b m => exact absurd (List.append_eq_nil_iff.1 same.symm).1 (some b)
  | cons a l ih =>
    cases m with
    | nil => exact absurd (List.append_eq_nil_iff.1 same).1 (some a)
    | cons b m =>
      obtain ⟨validA, validL⟩ := List.forall_mem_cons.1 hl
      obtain ⟨validB, validM⟩ := List.forall_mem_cons.1 hm
      obtain ⟨rfl, rest⟩ := free a b _ _ validA validB same
      rw [ih validL validM rest]

end PrefixFree

namespace Sha256

@[simp] theorem length_bigEndian (width n : Nat) : (bigEndian width n).length = width := by
  simp [bigEndian]

/-- A number that fits is known by its bytes. -/
theorem bigEndian_inj {width m n : Nat} (hm : m < 256 ^ width) (hn : n < 256 ^ width)
    (same : bigEndian width m = bigEndian width n) : m = n := by
  have byte : ∀ i < width, m / 256 ^ i % 256 = n / 256 ^ i % 256 := by
    intro i below
    have at_i := List.map_inj_left.1 same i (by simpa using below)
    simpa [Nat.shiftRight_eq_div_pow, Nat.pow_mul] using congrArg UInt8.toNat at_i
  have upTo : ∀ k ≤ width, m % 256 ^ k = n % 256 ^ k := by
    intro k
    induction k with
    | zero => simp [Nat.mod_one]
    | succ k ih =>
      intro le
      rw [Nat.mod_pow_succ, Nat.mod_pow_succ, ih (by omega), byte k (by omega)]
  have all := upTo width (Nat.le_refl width)
  rwa [Nat.mod_eq_of_lt hm, Nat.mod_eq_of_lt hn] at all

@[simp] theorem length_digest (message : List UInt8) : (digest message).length = 32 := by
  simp [digest, Registers.toList]

/-- The two digits of a byte. -/
def hexDigits (b : UInt8) : List Char :=
  [Nat.digitChar (b.toNat / 16), Nat.digitChar (b.toNat % 16)]

theorem digitChar_inj {m n : Nat} (hm : m < 16) (hn : n < 16)
    (same : Nat.digitChar m = Nat.digitChar n) : m = n := by
  have all : ∀ m < 16, ∀ n < 16, Nat.digitChar m = Nat.digitChar n → m = n := by decide
  exact all m hm n hn same

theorem prefixFree_hexDigits : PrefixFree (fun _ => True) hexDigits := by
  apply prefixFree_of_length 2 fun _ _ => rfl
  intro a b _ _ same
  obtain ⟨high, low⟩ := List.cons.inj same
  have belowA := a.toNat_lt
  have belowB := b.toNat_lt
  have high := digitChar_inj (by omega) (by omega) high
  have low := digitChar_inj (by omega) (by omega) (List.cons.inj low).1
  exact UInt8.toNat_inj.1 (by omega)

theorem hex_inj {a b : List UInt8} : hex a = hex b ↔ a = b := by
  constructor
  · intro same
    have digits : a.flatMap hexDigits = b.flatMap hexDigits := String.ofList_inj.1 same
    exact prefixFree_hexDigits.flatMap_inj (fun _ => List.cons_ne_nil _ _) (fun _ _ => trivial)
      (fun _ _ => trivial) digits
  · rintro rfl
    rfl

theorem utf8ByteSize_ofList (chars : List Char) :
    (String.ofList chars).utf8ByteSize = (chars.map Char.utf8Size).sum := by
  induction chars with
  | nil => rfl
  | cons c rest ih =>
    rw [String.ofList_cons, String.utf8ByteSize_append, ih]
    simp

/-- Digits take one byte each. -/
theorem utf8ByteSize_hex (bytes : List UInt8) : (hex bytes).utf8ByteSize = 2 * bytes.length := by
  have one : ∀ n < 16, (Nat.digitChar n).utf8Size = 1 := by decide
  rw [hex, utf8ByteSize_ofList]
  induction bytes with
  | nil => rfl
  | cons b rest ih =>
    have below := b.toNat_lt
    rw [List.flatMap_cons, List.map_append, List.sum_append_nat, ih]
    simp [one (b.toNat / 16) (by omega), one (b.toNat % 16) (by omega)]
    omega

/-- Two different messages have the same digest. -/
def Collide (x y : List UInt8) : Prop := x ≠ y ∧ digest x = digest y

end Sha256

namespace Fingerprint

/-- The bytes of an array from some index on. -/
theorem toList_loop (bytes : ByteArray) (i : Nat) (acc : List UInt8) :
    ByteArray.toList.loop bytes i acc = acc.reverse ++ bytes.data.toList.drop i := by
  fun_induction ByteArray.toList.loop bytes i acc with
  | case1 i acc below ih =>
    have here : i < bytes.data.size := below
    have first : bytes.get! i = bytes.data[i] := getElem!_pos bytes.data i here
    rw [ih, List.drop_eq_getElem_cons (i := i) (by simpa using below), first]
    simp
  | case2 i acc beyond =>
    have none : bytes.data.toList.drop i = [] := List.drop_eq_nil_of_le (by simpa using beyond)
    rw [none, List.append_nil]

theorem textBytes_eq (text : String) : textBytes text = text.toByteArray.data.toList := by
  rw [textBytes, ByteArray.toList, toList_loop]
  rfl

@[simp] theorem length_textBytes (text : String) : (textBytes text).length = text.utf8ByteSize := by
  rw [textBytes_eq]
  rfl

theorem textBytes_inj {a b : String} : textBytes a = textBytes b ↔ a = b := by
  constructor
  · intro same
    rw [textBytes_eq, textBytes_eq, Array.toList_inj] at same
    exact String.toByteArray_inj.1 (ByteArray.ext same)
  · rintro rfl
    rfl

/-- The length of the text fits in eight bytes. -/
def Measurable (text : String) : Prop := text.utf8ByteSize < 2 ^ 64

instance (text : String) : Decidable (Measurable text) :=
  inferInstanceAs (Decidable (text.utf8ByteSize < 2 ^ 64))

theorem prefixFree_spellText : PrefixFree Measurable spellText := by
  intro a b s t ha hb same
  unfold spellText at same
  rw [List.append_assoc, List.append_assoc] at same
  obtain ⟨lengths, texts⟩ := List.append_inj same (by simp)
  have sizes : a.utf8ByteSize = b.utf8ByteSize := Sha256.bigEndian_inj ha hb lengths
  obtain ⟨bytes, rest⟩ := List.append_inj texts (by simpa using sizes)
  exact ⟨textBytes_inj.1 bytes, rest⟩

theorem prefixFree_spellOption : PrefixFree (fun o => ∀ text ∈ o, Measurable text) spellOption := by
  intro a b s t ha hb same
  cases a with
  | none =>
    cases b with
    | none => exact ⟨rfl, (List.cons.inj same).2⟩
    | some b => exact absurd (List.cons.inj same).1 (by decide)
  | some a =>
    cases b with
    | none => exact absurd (List.cons.inj same).1 (by decide)
    | some b =>
      have spelled := (List.cons.inj same).2
      obtain ⟨rfl, rest⟩ := prefixFree_spellText a b s t (ha a rfl) (hb b rfl) spelled
      exact ⟨rfl, rest⟩

/-- All texts of a declared host have lengths that fit in eight bytes. -/
structure MeasurableHost (e : String × HostSpec) : Prop where
  key : Measurable e.1
  zone : Measurable e.2.zone
  subnetId : ∀ text ∈ e.2.subnetId, Measurable text
  replicationSource : ∀ text ∈ e.2.replicationSource, Measurable text

instance (e : String × HostSpec) : Decidable (MeasurableHost e) :=
  decidable_of_iff (Measurable e.1 ∧ Measurable e.2.zone ∧
      (∀ text ∈ e.2.subnetId, Measurable text) ∧ ∀ text ∈ e.2.replicationSource, Measurable text)
    ⟨fun ⟨key, zone, subnetId, source⟩ => ⟨key, zone, subnetId, source⟩,
      fun ⟨key, zone, subnetId, source⟩ => ⟨key, zone, subnetId, source⟩⟩

theorem prefixFree_spellHost :
    PrefixFree MeasurableHost (fun e : String × HostSpec => spellHost e.1 e.2) := by
  rintro ⟨key, a⟩ ⟨key', b⟩ s t ha hb same
  simp only [spellHost, List.append_assoc, List.cons_append] at same
  obtain ⟨keys, same⟩ := prefixFree_spellText _ _ _ _ ha.key hb.key same
  obtain ⟨zones, same⟩ := prefixFree_spellText _ _ _ _ ha.zone hb.zone same
  obtain ⟨subnets, same⟩ := prefixFree_spellOption _ _ _ _ ha.subnetId hb.subnetId same
  obtain ⟨flags, same⟩ := List.cons.inj same
  obtain ⟨sources, rest⟩ :=
    prefixFree_spellOption _ _ _ _ ha.replicationSource hb.replicationSource same
  have addresses : a.assignPublicIp = b.assignPublicIp := by
    revert flags
    cases a.assignPublicIp <;> cases b.assignPublicIp <;> decide
  cases a
  cases b
  cases keys
  cases zones
  cases subnets
  cases addresses
  cases sources
  exact ⟨rfl, rest⟩

/-- All texts of a declaration have lengths that fit in eight bytes, as they do in memory. -/
def Spellable (hosts : Declaration) : Prop := ∀ e ∈ hosts.entries, MeasurableHost e

instance (hosts : Declaration) : Decidable (Spellable hosts) :=
  inferInstanceAs (Decidable (∀ e ∈ hosts.entries, MeasurableHost e))

/-- Different declarations are spelled differently. -/
theorem spell_inj {a b : Declaration} (ha : Spellable a) (hb : Spellable b)
    (same : spell a = spell b) : a = b := by
  have some : ∀ e : String × HostSpec, spellHost e.1 e.2 ≠ [] := by simp [spellHost]
  exact KeyMap.ext (prefixFree_spellHost.flatMap_inj some ha hb same)

/-- What is digested for the fingerprint of a cluster's hosts. -/
def clusterMessage (clusterId : String) (hosts : Declaration) : List UInt8 :=
  textBytes clusterId ++ textBytes (ofHosts hosts)

/-- The digest of the hosts is as long as any other, so it does not run into the cluster. -/
theorem clusterMessage_inj {clusterA clusterB : String} {a b : Declaration}
    (same : clusterMessage clusterA a = clusterMessage clusterB b) :
    clusterA = clusterB ∧ ofHosts a = ofHosts b := by
  obtain ⟨clusters, hosts⟩ := List.append_inj' same (by simp [ofHosts, Sha256.utf8ByteSize_hex])
  exact ⟨textBytes_inj.1 clusters, textBytes_inj.1 hosts⟩

theorem collide_of_hex_eq {x y : List UInt8}
    (same : Sha256.hex (Sha256.digest x) = Sha256.hex (Sha256.digest y)) :
    x = y ∨ Sha256.Collide x y := by
  by_cases equal : x = y
  · exact .inl equal
  · exact .inr ⟨equal, Sha256.hex_inj.1 same⟩

/-- The bytes that are digested for some hosts determine them. Two configurations with one
fingerprint have the same cluster and the same hosts unless two different messages that were
digested for them have one digest. -/
theorem fingerprint_determines {a b : Config} (ha : Spellable a.hosts) (hb : Spellable b.hosts) :
    (spell a.hosts = spell b.hosts → a.hosts = b.hosts) ∧
      (ofCluster a.cluster.id a.hosts = ofCluster b.cluster.id b.hosts →
        a.cluster.id = b.cluster.id ∧ a.hosts = b.hosts ∨
        Sha256.Collide (spell a.hosts) (spell b.hosts) ∨
        Sha256.Collide (clusterMessage a.cluster.id a.hosts)
          (clusterMessage b.cluster.id b.hosts)) := by
  refine ⟨spell_inj ha hb, fun same => ?_⟩
  rcases collide_of_hex_eq same with messages | collide
  · obtain ⟨clusters, digests⟩ := clusterMessage_inj messages
    rcases collide_of_hex_eq digests with spelled | collide
    · exact .inl ⟨clusters, spell_inj ha hb spelled⟩
    · exact .inr (.inl collide)
  · exact .inr (.inr collide)

/-- One host of a key in a zone. -/
def oneHost (key zone : String) : Config where
  cluster := { id := "c", name := "main" }
  hosts := .ofList [(key, { zone })]

/-- A letter that moves from the key to the zone changes what is digested. -/
theorem fingerprint_determines_shifted :
    Spellable (oneHost "ab" "c").hosts ∧ Spellable (oneHost "a" "bc").hosts ∧
      spell (oneHost "ab" "c").hosts ≠ spell (oneHost "a" "bc").hosts ∧
      ofCluster "c" (oneHost "ab" "c").hosts ≠ ofCluster "c" (oneHost "a" "bc").hosts := by
  have first : Spellable (oneHost "ab" "c").hosts := by decide +kernel
  have second : Spellable (oneHost "a" "bc").hosts := by decide +kernel
  have differ : (oneHost "ab" "c").hosts ≠ (oneHost "a" "bc").hosts := by decide +kernel
  have determined := fingerprint_determines first second
  exact ⟨first, second, fun same => differ (determined.1 same), by decide +kernel⟩

end Fingerprint

end HostRoster
