/-
  What the classification of an address promises, in both of its modes.

  A version 4 address can arrive wrapped in version 6 in four ways (`Embedding`), each with its own
  prefix and its own filler bits.  The prefixes are disjoint, so the order in which
  `normaliseAddress` tries them is of no account, and whatever the filler the wrapped address is
  classified as the plain one: **`classify_wrapped`**.

  The ranges that are to be blocked in both modes are those of ADR 0001, I2
  (`unconditionallyBlocked`).  Three of them, the documentation ranges of version 4, stand in the
  table that is left out when private addresses are allowed: **`classify_blocks_iff`**.
-/
import FavlGateway.Security.Ssrf
import Mathlib.Algebra.Group.Nat.Defs

namespace FavlGateway.Security

open FavlGateway.Library

/-! ## Networks -/

section Networks

variable {ip : IpAddress} {reason : String} {network : IpNetwork} {table : List (IpNetwork × String)}

/-- Two networks with no address in common: they differ where both masks look. -/
def disjointNetworks : IpNetwork → IpNetwork → Bool
  | .v4 a l, .v4 a' l' =>
    let m := IpNetwork.mask 32 l &&& IpNetwork.mask 32 l'
    a &&& m != a' &&& m
  | .v6 a l, .v6 a' l' =>
    let m := IpNetwork.mask 128 l &&& IpNetwork.mask 128 l'
    a &&& m != a' &&& m
  | _, _ => true

/-- What a network fixes under its mask it fixes under any part of it. -/
theorem and_of_masked {w : Nat} {bits mask address : BitVec w} (mask' : BitVec w)
    (h : bits &&& mask = address) :
    address &&& (mask &&& mask') = bits &&& (mask &&& mask') := by
  rw [← h]
  ext i hi
  simp only [BitVec.getElem_and]
  cases mask[i] <;> simp

theorem not_both_contain {network' : IpNetwork} (h : disjointNetworks network network' = true)
    (hin : network.contains ip = true) : network'.contains ip = false := by
  rw [Bool.eq_false_iff]
  intro hin'
  cases network with
  | v4 a l =>
    cases network' with
    | v6 a' l' => cases ip <;> simp [IpNetwork.contains] at hin hin'
    | v4 a' l' =>
      cases ip with
      | v6 bits scope => simp [IpNetwork.contains] at hin
      | v4 bits =>
        have hleft := and_of_masked (IpNetwork.mask 32 l') (eq_of_beq hin)
        have hright := and_of_masked (IpNetwork.mask 32 l) (eq_of_beq hin')
        rw [BitVec.and_comm (IpNetwork.mask 32 l')] at hright
        simp [disjointNetworks, hleft, hright] at h
  | v6 a l =>
    cases network' with
    | v4 a' l' => cases ip <;> simp [IpNetwork.contains] at hin hin'
    | v6 a' l' =>
      cases ip with
      | v4 bits => simp [IpNetwork.contains] at hin
      | v6 bits scope =>
        have hleft := and_of_masked (IpNetwork.mask 128 l') (eq_of_beq hin)
        have hright := and_of_masked (IpNetwork.mask 128 l) (eq_of_beq hin')
        rw [BitVec.and_comm (IpNetwork.mask 128 l')] at hright
        simp [disjointNetworks, hleft, hright] at h

theorem matchNetwork_ne_none (hmem : (network, reason) ∈ table)
    (hin : network.contains ip = true) : matchNetwork ip table ≠ none := by
  induction table with
  | nil => cases hmem
  | cons entry rest ih =>
    unfold matchNetwork
    split
    · exact nofun
    · rename_i hout
      rcases List.mem_cons.mp hmem with rfl | hrest
      · exact absurd hin hout
      · exact ih hrest

theorem matchNetwork_eq_none (h : ∀ entry ∈ table, entry.1.contains ip = false) :
    matchNetwork ip table = none := by
  induction table with
  | nil => rfl
  | cons entry rest ih =>
    unfold matchNetwork
    rw [if_neg (by simp [h entry List.mem_cons_self])]
    exact ih fun entry' hrest => h entry' (List.mem_cons_of_mem _ hrest)

/-- An address of a network is one whose leading bits are the network's. -/
theorem contains_v6_iff {address bits : BitVec 128} {length : Nat} {scope : Option PyStr} :
    (IpNetwork.v6 address length).contains (.v6 bits scope) = true ↔
      bits >>> (128 - length) <<< (128 - length) = address := by
  have hmask : bits &&& IpNetwork.mask 128 length =
      bits >>> (128 - length) <<< (128 - length) := by
    ext i hi
    simp only [IpNetwork.mask, BitVec.getElem_and, BitVec.getElem_shiftLeft,
      BitVec.getElem_ushiftRight, BitVec.getElem_allOnes]
    by_cases hlow : i < 128 - length
    · simp [hlow]
    · have hback : 128 - length + (i - (128 - length)) = i := by omega
      simp [hlow, hback, BitVec.getLsbD_eq_getElem hi]
  unfold IpNetwork.contains
  rw [beq_iff_eq, hmask]

end Networks

/-! ## Embeddings -/

/-- The ways a version 4 address is embedded in version 6, with what each leaves free. -/
inductive Embedding where
  /-- `::ffff:0:0/96` -/
  | mapped
  /-- `2002::/16` -/
  | sixtofour (rest : BitVec 80)
  /-- `2001::/32`: the client's address is stored inverted -/
  | teredo (server : BitVec 32) (flags port : BitVec 16)
  /-- `64:ff9b::/96` -/
  | nat64

/-- The address that embeds `a`. -/
def Embedding.wrap (a : BitVec 32) : Embedding → BitVec 128
  | mapped => (0xFFFF : BitVec 96) ++ a
  | sixtofour rest => (0x2002 : BitVec 16) ++ a ++ rest
  | teredo server flags port => (0x20010000 : BitVec 32) ++ server ++ flags ++ port ++ ~~~a
  | nat64 => (0x0064ff9b0000000000000000 : BitVec 96) ++ a

example : Embedding.wrap 0x7f000001 (.sixtofour 0) = 0x20027f000001 <<< 80 := by decide

section Embeddings

variable {n m k : Nat} {bits c : BitVec 128} {a : BitVec 32}

theorem toNat_append_eq (x : BitVec n) (y : BitVec m) :
    (x ++ y).toNat = x.toNat * 2 ^ m + y.toNat := by
  rw [BitVec.toNat_append, ← Nat.shiftLeft_add_eq_or_of_lt y.isLt, Nat.shiftLeft_eq]

theorem prefix_eq_iff : bits >>> k = c ↔ bits.toNat / 2 ^ k = c.toNat := by
  rw [BitVec.toNat_eq, BitVec.toNat_ushiftRight, Nat.shiftRight_eq_div_pow]

theorem toNat_wrap_mapped : (Embedding.mapped.wrap a).toNat = 0xFFFF * 2 ^ 32 + a.toNat :=
  toNat_append_eq _ _

theorem toNat_wrap_sixtofour {rest : BitVec 80} : ((Embedding.sixtofour rest).wrap a).toNat =
    (0x2002 * 2 ^ 32 + a.toNat) * 2 ^ 80 + rest.toNat := by
  unfold Embedding.wrap
  rw [toNat_append_eq, toNat_append_eq]
  rfl

theorem toNat_wrap_teredo {server : BitVec 32} {flags port : BitVec 16} :
    ((Embedding.teredo server flags port).wrap a).toNat =
      (((0x20010000 * 2 ^ 32 + server.toNat) * 2 ^ 16 + flags.toNat) * 2 ^ 16 + port.toNat) *
        2 ^ 32 + (2 ^ 32 - 1 - a.toNat) := by
  unfold Embedding.wrap
  rw [toNat_append_eq, toNat_append_eq, toNat_append_eq, toNat_append_eq, BitVec.toNat_not]
  rfl

theorem toNat_wrap_nat64 : (Embedding.nat64.wrap a).toNat =
    0x0064ff9b0000000000000000 * 2 ^ 32 + a.toNat :=
  toNat_append_eq _ _

/-- **Unwrapping**: whatever the filler, what is embedded is taken out. -/
theorem normaliseAddress_wrap (e : Embedding) (scope : Option PyStr) :
    normaliseAddress (.v6 (e.wrap a) scope) = .v4 a := by
  have ha := a.isLt
  cases e with
  | mapped =>
    have hprefix : Embedding.mapped.wrap a >>> 32 = 0xFFFF := by
      rw [prefix_eq_iff, toNat_wrap_mapped]
      show _ = 0xFFFF
      omega
    have hvalue : (Embedding.mapped.wrap a).setWidth 32 = a := by
      rw [BitVec.toNat_eq, BitVec.toNat_setWidth, toNat_wrap_mapped]
      omega
    simp only [normaliseAddress, IpAddress.ipv4Mapped, if_pos hprefix, hvalue]
  | sixtofour rest =>
    have hrest := rest.isLt
    have hmapped : ¬ (Embedding.sixtofour rest).wrap a >>> 32 = 0xFFFF := by
      rw [prefix_eq_iff, toNat_wrap_sixtofour]
      show ¬ _ = 0xFFFF
      omega
    have hprefix : (Embedding.sixtofour rest).wrap a >>> 112 = 0x2002 := by
      rw [prefix_eq_iff, toNat_wrap_sixtofour]
      show _ = 0x2002
      omega
    have hvalue : ((Embedding.sixtofour rest).wrap a >>> 80).setWidth 32 = a := by
      rw [BitVec.toNat_eq, BitVec.toNat_setWidth, BitVec.toNat_ushiftRight,
        Nat.shiftRight_eq_div_pow, toNat_wrap_sixtofour]
      omega
    simp only [normaliseAddress, IpAddress.ipv4Mapped, if_neg hmapped, IpAddress.sixtofour,
      if_pos hprefix, hvalue]
  | teredo server flags port =>
    have hserver := server.isLt
    have hflags := flags.isLt
    have hport := port.isLt
    have hmapped : ¬ (Embedding.teredo server flags port).wrap a >>> 32 = 0xFFFF := by
      rw [prefix_eq_iff, toNat_wrap_teredo]
      show ¬ _ = 0xFFFF
      omega
    have hsixtofour : ¬ (Embedding.teredo server flags port).wrap a >>> 112 = 0x2002 := by
      rw [prefix_eq_iff, toNat_wrap_teredo]
      show ¬ _ = 0x2002
      omega
    have hprefix : (Embedding.teredo server flags port).wrap a >>> 96 = 0x20010000 := by
      rw [prefix_eq_iff, toNat_wrap_teredo]
      show _ = 0x20010000
      omega
    have hvalue : (~~~((Embedding.teredo server flags port).wrap a)).setWidth 32 = a := by
      rw [BitVec.toNat_eq, BitVec.toNat_setWidth, BitVec.toNat_not, toNat_wrap_teredo]
      omega
    simp only [normaliseAddress, IpAddress.ipv4Mapped, if_neg hmapped, IpAddress.sixtofour,
      if_neg hsixtofour, IpAddress.teredoClient, if_pos hprefix, hvalue]
  | nat64 =>
    have hmapped : ¬ Embedding.nat64.wrap a >>> 32 = 0xFFFF := by
      rw [prefix_eq_iff, toNat_wrap_nat64]
      show ¬ _ = 0xFFFF
      omega
    have hsixtofour : ¬ Embedding.nat64.wrap a >>> 112 = 0x2002 := by
      rw [prefix_eq_iff, toNat_wrap_nat64]
      show ¬ _ = 0x2002
      omega
    have hteredo : ¬ Embedding.nat64.wrap a >>> 96 = 0x20010000 := by
      rw [prefix_eq_iff, toNat_wrap_nat64]
      show ¬ _ = 0x20010000
      omega
    have hprefix : nat64Network.contains (.v6 (Embedding.nat64.wrap a) scope) = true := by
      unfold nat64Network
      rw [contains_v6_iff, BitVec.toNat_eq, BitVec.toNat_shiftLeft, BitVec.toNat_ushiftRight,
        Nat.shiftRight_eq_div_pow, Nat.shiftLeft_eq, toNat_wrap_nat64]
      show _ = 0x0064ff9b000000000000000000000000
      omega
    have hvalue : (Embedding.nat64.wrap a).setWidth 32 = a := by
      rw [BitVec.toNat_eq, BitVec.toNat_setWidth, toNat_wrap_nat64]
      omega
    simp only [normaliseAddress, IpAddress.ipv4Mapped, if_neg hmapped, IpAddress.sixtofour,
      if_neg hsixtofour, IpAddress.teredoClient, if_neg hteredo, if_pos hprefix, hvalue]

/-- What is permitted without private addresses is permitted with them. -/
theorem classify_mono {ip : IpAddress} (h : classify ip false = none) : classify ip true = none := by
  have hnone : addressIsForbidden ip = none := h
  unfold addressIsForbidden at hnone
  split at hnone
  · cases hnone
  · rename_i halways
    have hsame := classify_normaliseAddress ip true
    exact hsame.symm.trans halways

/-- **Wrapping a version 4 address never changes its classification.** -/
theorem classify_wrapped :
    (∀ (a : BitVec 32) (e : Embedding) (scope : Option PyStr) (allowPrivate : Bool),
      classify (.v6 (e.wrap a) scope) allowPrivate = classify (.v4 a) allowPrivate ∧
        normaliseAddress (.v6 (e.wrap a) scope) = .v4 a) ∧
    (∀ ip, normaliseAddress (normaliseAddress ip) = normaliseAddress ip) ∧
    ∀ ip, classify ip false = none → classify ip true = none := by
  refine ⟨?_, normaliseAddress_idem, fun ip => classify_mono⟩
  intro a e scope allowPrivate
  have hunwrapped : normaliseAddress (.v6 (e.wrap a) scope) = .v4 a :=
    normaliseAddress_wrap e scope
  refine ⟨?_, hunwrapped⟩
  rw [← classify_normaliseAddress, hunwrapped]

end Embeddings

/-! ## The ranges of ADR 0001 -/

/-- The documentation ranges of version 4. -/
def documentationV4 : List IpNetwork :=
  [.quad 192 0 2 0 24, .quad 198 51 100 0 24, .quad 203 0 113 0 24]

/-- What I2 blocks unconditionally. -/
def unconditionallyBlocked : List IpNetwork :=
  -- loopback
  [.quad 127 0 0 0 8, .v6 1 128,
    -- link-local
    .quad 169 254 0 0 16, .v6 0xfe800000000000000000000000000000 10,
    -- multicast
    .quad 224 0 0 0 4, .v6 0xff000000000000000000000000000000 8,
    -- unspecified
    .quad 0 0 0 0 8, .v6 0 128,
    -- carrier-grade NAT
    .quad 100 64 0 0 10,
    -- site-local
    .v6 0xfec00000000000000000000000000000 10,
    -- IPv4-compatible and IPv4-translated embeddings
    .v6 0 96, .v6 0x0000000000000000ffff000000000000 96,
    -- documentation of version 6, discard-only
    .v6 0x20010db8000000000000000000000000 32, .v6 0x01000000000000000000000000000000 64,
    -- cloud metadata
    .quad 169 254 169 254 32, .quad 169 254 170 2 32, .quad 100 100 100 200 32,
    .v6 0xfd000ec2000000000000000000000254 128] ++ documentationV4

/-- RFC 1918 space and `fc00::/7`. -/
def privateSpace : List IpNetwork :=
  [.quad 10 0 0 0 8, .quad 172 16 0 0 12, .quad 192 168 0 0 16,
    .v6 0xfc000000000000000000000000000000 7]

/-- The address lies in one of the ranges. -/
def InRanges (ranges : List IpNetwork) (ip : IpAddress) : Prop :=
  ∃ network ∈ ranges, network.contains ip = true

instance (ranges : List IpNetwork) (ip : IpAddress) : Decidable (InRanges ranges ip) :=
  inferInstanceAs (Decidable (∃ network ∈ ranges, _))

/-- **What I2 asks of a classification.** -/
def Blocks (ip : IpAddress) (allowPrivate : Bool) : Prop :=
  (InRanges unconditionallyBlocked (normaliseAddress ip) → classify ip allowPrivate ≠ none) ∧
    (allowPrivate = false → InRanges privateSpace (normaliseAddress ip) →
      classify ip allowPrivate ≠ none)

deriving instance DecidableEq for IpNetwork

/-- The networks that are looked at in both modes. -/
def alwaysNetworks : List IpNetwork := metadataNetworks ++ alwaysForbiddenNetworks.map Prod.fst

theorem unconditionallyBlocked_listed : ∀ network ∈ unconditionallyBlocked,
    network ∈ alwaysNetworks ∨ network ∈ documentationV4 := by
  decide

theorem documentationV4_private : ∀ network ∈ documentationV4,
    network ∈ privateNetworks.map Prod.fst := by
  decide

theorem privateSpace_private : ∀ network ∈ privateSpace,
    network ∈ privateNetworks.map Prod.fst := by
  decide

/-- No documentation range of version 4 meets a network that is looked at in both modes. -/
theorem documentationV4_apart : ∀ network ∈ documentationV4, ∀ network' ∈ alwaysNetworks,
    disjointNetworks network network' = true := by
  decide

section Ranges

variable {ip : IpAddress}

theorem classify_always (h : InRanges alwaysNetworks (normaliseAddress ip)) (allowPrivate : Bool) :
    classify ip allowPrivate ≠ none := by
  obtain ⟨network, hmem, hin⟩ := h
  have halways : alwaysForbidden ip ≠ none := by
    unfold alwaysForbidden
    split
    · exact nofun
    · rename_i hmetadata
      rcases List.mem_append.mp hmem with hlisted | hlisted
      · exact absurd (List.any_eq_true.mpr ⟨network, hlisted, hin⟩) hmetadata
      · obtain ⟨⟨network', reason⟩, hentry, rfl⟩ := List.mem_map.mp hlisted
        exact matchNetwork_ne_none hentry hin
  cases allowPrivate with
  | true => exact halways
  | false => exact fun hnone => halways (classify_mono hnone)

theorem classify_private (h : InRanges (privateNetworks.map Prod.fst) (normaliseAddress ip)) :
    classify ip false ≠ none := by
  obtain ⟨network, hmem, hin⟩ := h
  obtain ⟨⟨network', reason⟩, hentry, rfl⟩ := List.mem_map.mp hmem
  show addressIsForbidden ip ≠ none
  unfold addressIsForbidden
  split
  · exact nofun
  · exact matchNetwork_ne_none hentry hin

theorem classify_documentationV4 (h : InRanges documentationV4 (normaliseAddress ip)) :
    classify ip true = none := by
  obtain ⟨network, hmem, hin⟩ := h
  have hout : ∀ network' ∈ alwaysNetworks, network'.contains (normaliseAddress ip) = false :=
    fun network' hmem' => not_both_contain (documentationV4_apart network hmem network' hmem') hin
  show alwaysForbidden ip = none
  unfold alwaysForbidden
  rw [if_neg]
  · apply matchNetwork_eq_none
    intro entry hentry
    exact hout entry.1 (List.mem_append_right _ (List.mem_map_of_mem hentry))
  · intro hany
    obtain ⟨network', hmem', hin'⟩ := List.any_eq_true.mp hany
    rw [hout network' (List.mem_append_left _ hmem')] at hin'
    cases hin'

/-- **When a classification blocks what I2 says**: unless private addresses are allowed and the
    address is one of the documentation ranges of version 4. -/
theorem classify_blocks_iff {allowPrivate : Bool} : Blocks ip allowPrivate ↔
    ¬ (allowPrivate = true ∧ InRanges documentationV4 (normaliseAddress ip)) := by
  constructor
  · rintro ⟨hblocked, -⟩ ⟨rfl, hdocumentation⟩
    obtain ⟨network, hmem, hin⟩ := hdocumentation
    refine hblocked ⟨network, List.mem_append_right _ hmem, hin⟩ ?_
    exact classify_documentationV4 ⟨network, hmem, hin⟩
  · intro h
    constructor
    · rintro ⟨network, hmem, hin⟩
      rcases unconditionallyBlocked_listed network hmem with halways | hdocumentation
      · exact classify_always ⟨network, halways, hin⟩ allowPrivate
      · cases allowPrivate with
        | true => exact absurd ⟨rfl, network, hdocumentation, hin⟩ h
        | false =>
          exact classify_private ⟨network, documentationV4_private network hdocumentation, hin⟩
    · rintro rfl ⟨network, hmem, hin⟩
      exact classify_private ⟨network, privateSpace_private network hmem, hin⟩

/-- 192.0.2.1 is reached once private addresses are allowed. -/
theorem documentation_address_permitted : ¬ Blocks (.v4 0xC0000201) true := by
  intro hblocks
  have hin : InRanges unconditionallyBlocked (normaliseAddress (.v4 0xC0000201)) := by decide
  exact hblocks.1 hin (by decide)

end Ranges

end FavlGateway.Security
