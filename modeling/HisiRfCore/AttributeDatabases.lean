import HisiRfCore.CheckedData
import HisiRfCore.FlagWords

/-!
# Static attribute databases

A GATT or an SSAP server is a tree: the server holds services, a service holds
characteristics or properties, and each of these holds descriptors. Every level has its own
checking constructor, and a chip adapter reads the tree back through accessors. A draft is
the same tree before any check. The two protocols check their values alike, but what the
flags of a value ask for differs: a descriptor in GATT, permissions in SSAP.
-/

namespace HisiRfCore.AttributeDatabases

open Function CheckedData FlagWords

section Values

/-- UUID of an attribute. -/
inductive AttributeUuid
  | uuid16 (value : UInt16)
  | uuid128 (bytes : Vector UInt8 16)
  deriving DecidableEq

/-- What a descriptor holds. -/
structure DescriptorHead where
  /-- Descriptor UUID. -/
  uuid : AttributeUuid
  /-- Peer permissions. -/
  permissions : FlagSet 2
  /-- Initial bytes copied into backend-owned storage. -/
  initialValue : List UInt8
  /-- Maximum accepted length. -/
  maximumLen : UInt16

/-- What a characteristic or a property holds beside its descriptors. -/
structure ValueHead (count : ℕ) where
  /-- UUID of the value. -/
  uuid : AttributeUuid
  /-- Peer permissions. -/
  permissions : FlagSet 2
  /-- Supported operations. -/
  operations : FlagSet count
  /-- Initial value copied into backend-owned storage. -/
  initialValue : List UInt8
  /-- Maximum accepted value length. -/
  maximumLen : UInt16

/-- What a GATT service holds beside its characteristics. -/
structure ServiceHead where
  /-- Service UUID. -/
  uuid : AttributeUuid
  /-- Whether this is a primary service. -/
  primary : Bool

/-- The check of the initial and the maximum length. -/
abbrev LengthRejected (initialValue : List UInt8) (maximumLen : UInt16) : Prop :=
  maximumLen = 0 ∨ maximumLen.toNat < initialValue.length

/-- The initial value fits, and some value does. -/
def Fits (initialValue : List UInt8) (maximumLen : UInt16) : Prop :=
  maximumLen ≠ 0 ∧ initialValue.length ≤ maximumLen.toNat

theorem fits_iff {initialValue : List UInt8} {maximumLen : UInt16} :
    Fits initialValue maximumLen ↔ ¬ LengthRejected initialValue maximumLen := by
  rw [Fits, not_or, Nat.not_lt]

/-- A descriptor that fits its length. -/
abbrev DescriptorDefinition :=
  Checked fun head : DescriptorHead => LengthRejected head.initialValue head.maximumLen

/-- Validate a descriptor's initial and maximum value lengths. -/
def DescriptorDefinition.tryNew (uuid : AttributeUuid) (permissions : FlagSet 2)
    (initialValue : List UInt8) (maximumLen : UInt16) : Option DescriptorDefinition :=
  Checked.tryNew _ ⟨uuid, permissions, initialValue, maximumLen⟩

/-- Build a descriptor from its draft. -/
def buildDescriptor (draft : DescriptorHead) : Option DescriptorDefinition :=
  DescriptorDefinition.tryNew draft.uuid draft.permissions draft.initialValue draft.maximumLen

/-- A descriptor is read back as it was drafted. -/
theorem descriptor_isPartialInv :
    IsPartialInv (Checked.value : DescriptorDefinition → DescriptorHead) buildDescriptor :=
  Checked.isPartialInv _

theorem buildDescriptor_isSome {draft : DescriptorHead} :
    (buildDescriptor draft).isSome = true ↔ Fits draft.initialValue draft.maximumLen :=
  Checked.tryNew_isSome.trans fits_iff.symm

end Values

section Gatt

/-- Bluetooth GATT UUID without controller-specific byte layout. -/
abbrev GattUuid := AttributeUuid

/-- Valid GATT attribute permissions. -/
abbrev GattPermissions := FlagSet 2

/-- Valid GATT characteristic operations. -/
abbrev GattProperties := FlagSet 5

/-- Attribute can be read by the peer. -/
def GattPermissions.read : GattPermissions := .flag 0 (by decide)

/-- Attribute can be written by the peer. -/
def GattPermissions.write : GattPermissions := .flag 1 (by decide)

/-- Peer may read the characteristic value. -/
def GattProperties.read : GattProperties := .flag 0 (by decide)

/-- Peer may write and receive a response. -/
def GattProperties.write : GattProperties := .flag 1 (by decide)

/-- Peer may write without a response. -/
def GattProperties.writeWithoutResponse : GattProperties := .flag 2 (by decide)

/-- Server may send notifications. -/
def GattProperties.notify : GattProperties := .flag 3 (by decide)

/-- Server may send acknowledged indications. -/
def GattProperties.indicate : GattProperties := .flag 4 (by decide)

/-- Static GATT descriptor definition. -/
abbrev GattDescriptorDefinition := DescriptorDefinition

/-- The search for a client characteristic configuration descriptor. -/
def hasCccDescriptor : List GattDescriptorDefinition → Bool
  | [] => false
  | descriptor :: rest =>
    if descriptor.value.uuid = .uuid16 0x2902 then true else hasCccDescriptor rest

/-- The characteristic may notify or indicate. -/
def publishes (properties : GattProperties) : Bool :=
  properties.contains GattProperties.notify || properties.contains GattProperties.indicate

/-- The checks of a characteristic: value capacity, and the notification contract. -/
abbrev CharacteristicRejected (node : Node (ValueHead 5) GattDescriptorDefinition) : Prop :=
  LengthRejected node.head.initialValue node.head.maximumLen ∨
    (publishes node.head.operations && !hasCccDescriptor node.parts) = true

/-- Static GATT characteristic definition. -/
abbrev GattCharacteristicDefinition := Checked CharacteristicRejected

/-- Validate value capacity and the notification/indication CCC contract. -/
def GattCharacteristicDefinition.tryNew (uuid : GattUuid) (permissions : GattPermissions)
    (properties : GattProperties) (initialValue : List UInt8) (maximumLen : UInt16)
    (descriptors : List GattDescriptorDefinition) : Option GattCharacteristicDefinition :=
  Checked.tryNew _ ⟨⟨uuid, permissions, properties, initialValue, maximumLen⟩, descriptors⟩

/-- Static GATT service definition. -/
abbrev GattServiceDefinition := NonemptyNode ServiceHead GattCharacteristicDefinition

/-- Require at least one characteristic in a service. -/
def GattServiceDefinition.tryNew (uuid : GattUuid) (primary : Bool)
    (characteristics : List GattCharacteristicDefinition) : Option GattServiceDefinition :=
  Checked.tryNew _ ⟨⟨uuid, primary⟩, characteristics⟩

/-- Complete caller-owned static GATT server database. -/
abbrev GattServerDefinition := NonemptyNode GattUuid GattServiceDefinition

/-- Require at least one service in the static database. -/
def GattServerDefinition.tryNew (appUuid : GattUuid) (services : List GattServiceDefinition) :
    Option GattServerDefinition :=
  Checked.tryNew _ ⟨appUuid, services⟩

/-- A drafted GATT service. -/
abbrev GattServiceDraft := Node ServiceHead (Node (ValueHead 5) DescriptorHead)

/-- A drafted GATT server. -/
abbrev GattServerDraft := Node GattUuid GattServiceDraft

/-- A characteristic as its accessors show it. -/
def GattCharacteristicDefinition.describe (x : GattCharacteristicDefinition) :
    Node (ValueHead 5) DescriptorHead :=
  x.value.map Checked.value

/-- A service as its accessors show it. -/
def GattServiceDefinition.describe (x : GattServiceDefinition) : GattServiceDraft :=
  x.value.map GattCharacteristicDefinition.describe

/-- A server database as its accessors show it. -/
def GattServerDefinition.describe (x : GattServerDefinition) : GattServerDraft :=
  x.value.map GattServiceDefinition.describe

/-- Build a characteristic over its descriptors. -/
def buildCharacteristic : Node (ValueHead 5) DescriptorHead → Option GattCharacteristicDefinition :=
  Node.build (fun head => GattCharacteristicDefinition.tryNew head.uuid head.permissions
    head.operations head.initialValue head.maximumLen) buildDescriptor

/-- Build a service over its characteristics. -/
def buildGattService : GattServiceDraft → Option GattServiceDefinition :=
  Node.build (fun head => GattServiceDefinition.tryNew head.uuid head.primary) buildCharacteristic

/-- Build a server database over its services. -/
def buildGattServer : GattServerDraft → Option GattServerDefinition :=
  Node.build GattServerDefinition.tryNew buildGattService

/-- A drafted characteristic that fits, and has a configuration descriptor if it publishes. -/
def CharacteristicWellFormed (node : Node (ValueHead 5) DescriptorHead) : Prop :=
  Fits node.head.initialValue node.head.maximumLen ∧
    ((∃ i ∈ node.head.operations.flags, 3 ≤ i) → ∃ d ∈ node.parts, d.uuid = .uuid16 0x2902) ∧
    ∀ d ∈ node.parts, Fits d.initialValue d.maximumLen

/-- A drafted server in which nothing is empty and every value is well formed. -/
def GattWellFormed (draft : GattServerDraft) : Prop :=
  draft.parts ≠ [] ∧ ∀ service ∈ draft.parts, service.parts ≠ [] ∧
    ∀ characteristic ∈ service.parts, CharacteristicWellFormed characteristic

/-- The search finds a descriptor with the UUID, wherever it stands. -/
theorem hasCccDescriptor_iff {descriptors : List GattDescriptorDefinition} :
    hasCccDescriptor descriptors = true ↔
      ∃ d ∈ descriptors.map Checked.value, d.uuid = .uuid16 0x2902 := by
  induction descriptors with
  | nil => simp [hasCccDescriptor]
  | cons descriptor rest ih =>
    rw [hasCccDescriptor, List.map_cons, List.exists_mem_cons_iff, ← ih]
    split
    · next h => simp [h]
    · next h => simp [h]

/-- A characteristic publishes when it has one of the last two of its five operations. -/
theorem publishes_iff {properties : GattProperties} :
    publishes properties = true ↔ ∃ i ∈ properties.flags, 3 ≤ i := by
  rw [publishes, Bool.or_eq_true, GattProperties.notify, GattProperties.indicate,
    FlagSet.contains_flag, FlagSet.contains_flag]
  constructor
  · rintro (h | h)
    · exact ⟨3, h, by decide⟩
    · exact ⟨4, h, by decide⟩
  · rintro ⟨i, hi, hle⟩
    have hlt : i.val < 5 := properties.named i hi
    have hge : 3 ≤ i.val := hle
    have hcases : i = 3 ∨ i = 4 := by omega
    rcases hcases with rfl | rfl
    · exact Or.inl hi
    · exact Or.inr hi

/-- A characteristic is read back as it was drafted. -/
theorem characteristic_isPartialInv :
    IsPartialInv GattCharacteristicDefinition.describe buildCharacteristic :=
  Node.isPartialInv (Checked.isPartialInv _) descriptor_isPartialInv

/-- A characteristic is accepted as its draft is well formed. -/
theorem buildCharacteristic_isSome {node : Node (ValueHead 5) DescriptorHead} :
    (buildCharacteristic node).isSome = true ↔ CharacteristicWellFormed node := by
  have hwell : ∀ (head : ValueHead 5) (parts : List GattDescriptorDefinition),
      (GattCharacteristicDefinition.tryNew head.uuid head.permissions head.operations
        head.initialValue head.maximumLen parts).isSome = true ↔
      Fits head.initialValue head.maximumLen ∧ ((∃ i ∈ head.operations.flags, 3 ≤ i) →
        ∃ d ∈ parts.map Checked.value, d.uuid = .uuid16 0x2902) := by
    intro head parts
    rw [GattCharacteristicDefinition.tryNew, Checked.tryNew_isSome, not_or, ← fits_iff,
      ← hasCccDescriptor_iff, ← publishes_iff, Bool.and_eq_true, Bool.not_eq_true', not_and,
      Bool.not_eq_false]
  rw [buildCharacteristic, Node.build_isSome (fun head parts =>
    Fits head.initialValue head.maximumLen ∧ ((∃ i ∈ head.operations.flags, 3 ≤ i) →
      ∃ d ∈ parts, d.uuid = .uuid16 0x2902)) descriptor_isPartialInv hwell,
    CharacteristicWellFormed]
  constructor
  · rintro ⟨hparts, hfits, hccc⟩
    exact ⟨hfits, hccc, fun d hd => buildDescriptor_isSome.mp (hparts d hd)⟩
  · rintro ⟨hfits, hccc, hparts⟩
    exact ⟨fun d hd => buildDescriptor_isSome.mpr (hparts d hd), hfits, hccc⟩

/-- A service is read back as it was drafted. -/
theorem gattService_isPartialInv : IsPartialInv GattServiceDefinition.describe buildGattService :=
  NonemptyNode.isPartialInv characteristic_isPartialInv

/-- Every GATT database reads back as the draft that it was built from, and a draft is
accepted exactly when it is well formed: no server without a service, no service without a
characteristic, every value within its maximum length, and a configuration descriptor in
every characteristic that may notify or indicate. -/
theorem gatt_databases :
    IsPartialInv GattServerDefinition.describe buildGattServer ∧
      ∀ draft, (buildGattServer draft).isSome = true ↔ GattWellFormed draft := by
  refine ⟨NonemptyNode.isPartialInv gattService_isPartialInv, ?_⟩
  intro draft
  have hservice : ∀ service, (buildGattService service).isSome = true ↔ service.parts ≠ [] ∧
      ∀ characteristic ∈ service.parts, CharacteristicWellFormed characteristic := by
    intro service
    have hbuild : (buildGattService service).isSome = true ↔ _ :=
      NonemptyNode.ofParts_isSome characteristic_isPartialInv
    simp only [buildCharacteristic_isSome] at hbuild
    exact hbuild
  have hserver : (buildGattServer draft).isSome = true ↔ _ :=
    NonemptyNode.ofParts_isSome gattService_isPartialInv
  simp only [hservice] at hserver
  exact hserver

end Gatt

section Ssap

/-- SLE/SSAP UUID without WS63 wire-layout details. -/
abbrev SsapUuid := AttributeUuid

/-- Valid SSAP property permissions. -/
abbrev SsapPermissions := FlagSet 2

/-- Valid SSAP property operations. -/
abbrev SsapOperations := FlagSet 4

/-- Peer may read the value. -/
def SsapPermissions.read : SsapPermissions := .flag 0 (by decide)

/-- Peer may write the value. -/
def SsapPermissions.write : SsapPermissions := .flag 1 (by decide)

/-- Property supports reads. -/
def SsapOperations.read : SsapOperations := .flag 0 (by decide)

/-- Property supports writes. -/
def SsapOperations.write : SsapOperations := .flag 1 (by decide)

/-- Property supports notifications. -/
def SsapOperations.notify : SsapOperations := .flag 2 (by decide)

/-- Property supports indications. -/
def SsapOperations.indicate : SsapOperations := .flag 3 (by decide)

/-- Static SSAP descriptor definition. -/
abbrev SsapDescriptorDefinition := DescriptorDefinition

/-- The checks of a property: value capacity, and permission for what it supports. -/
abbrev PropertyRejected (node : Node (ValueHead 4) SsapDescriptorDefinition) : Prop :=
  LengthRejected node.head.initialValue node.head.maximumLen ∨
    (node.head.operations.contains SsapOperations.read &&
      !node.head.permissions.contains SsapPermissions.read) = true ∨
    (node.head.operations.contains SsapOperations.write &&
      !node.head.permissions.contains SsapPermissions.write) = true

/-- Static SSAP property definition. -/
abbrev SsapPropertyDefinition := Checked PropertyRejected

/-- Validate value capacity and permission/operation consistency. -/
def SsapPropertyDefinition.tryNew (uuid : SsapUuid) (permissions : SsapPermissions)
    (operations : SsapOperations) (initialValue : List UInt8) (maximumLen : UInt16)
    (descriptors : List SsapDescriptorDefinition) : Option SsapPropertyDefinition :=
  Checked.tryNew _ ⟨⟨uuid, permissions, operations, initialValue, maximumLen⟩, descriptors⟩

/-- Static SSAP service definition. -/
abbrev SsapServiceDefinition := NonemptyNode SsapUuid SsapPropertyDefinition

/-- Require at least one property in a service. -/
def SsapServiceDefinition.tryNew (uuid : SsapUuid) (properties : List SsapPropertyDefinition) :
    Option SsapServiceDefinition :=
  Checked.tryNew _ ⟨uuid, properties⟩

/-- Complete caller-owned static SSAP server database. -/
abbrev SsapServerDefinition := NonemptyNode SsapUuid SsapServiceDefinition

/-- Require at least one service in the static database. -/
def SsapServerDefinition.tryNew (appUuid : SsapUuid) (services : List SsapServiceDefinition) :
    Option SsapServerDefinition :=
  Checked.tryNew _ ⟨appUuid, services⟩

/-- A drafted SSAP service. -/
abbrev SsapServiceDraft := Node SsapUuid (Node (ValueHead 4) DescriptorHead)

/-- A drafted SSAP server. -/
abbrev SsapServerDraft := Node SsapUuid SsapServiceDraft

/-- A property as its accessors show it. -/
def SsapPropertyDefinition.describe (x : SsapPropertyDefinition) :
    Node (ValueHead 4) DescriptorHead :=
  x.value.map Checked.value

/-- A service as its accessors show it. -/
def SsapServiceDefinition.describe (x : SsapServiceDefinition) : SsapServiceDraft :=
  x.value.map SsapPropertyDefinition.describe

/-- A server database as its accessors show it. -/
def SsapServerDefinition.describe (x : SsapServerDefinition) : SsapServerDraft :=
  x.value.map SsapServiceDefinition.describe

/-- Build a property over its descriptors. -/
def buildProperty : Node (ValueHead 4) DescriptorHead → Option SsapPropertyDefinition :=
  Node.build (fun head => SsapPropertyDefinition.tryNew head.uuid head.permissions
    head.operations head.initialValue head.maximumLen) buildDescriptor

/-- Build a service over its properties. -/
def buildSsapService : SsapServiceDraft → Option SsapServiceDefinition :=
  Node.build SsapServiceDefinition.tryNew buildProperty

/-- Build a server database over its services. -/
def buildSsapServer : SsapServerDraft → Option SsapServerDefinition :=
  Node.build SsapServerDefinition.tryNew buildSsapService

/-- Reads and writes that the value supports are permitted. -/
def Permitted (permissions : SsapPermissions) (operations : SsapOperations) : Prop :=
  ∀ i ∈ operations.flags, i < 2 → i ∈ permissions.flags

/-- A drafted property that fits, and permits the reads and writes that it supports. -/
def PropertyWellFormed (node : Node (ValueHead 4) DescriptorHead) : Prop :=
  Fits node.head.initialValue node.head.maximumLen ∧
    Permitted node.head.permissions node.head.operations ∧
    ∀ d ∈ node.parts, Fits d.initialValue d.maximumLen

/-- A drafted server in which nothing is empty and every property is well formed. -/
def SsapWellFormed (draft : SsapServerDraft) : Prop :=
  draft.parts ≠ [] ∧ ∀ service ∈ draft.parts, service.parts ≠ [] ∧
    ∀ property ∈ service.parts, PropertyWellFormed property

/-- Permissions and operations name a read and a write by the same flags, so both checks
together are one inclusion. -/
theorem permitted_iff {permissions : SsapPermissions} {operations : SsapOperations} :
    Permitted permissions operations ↔
      (operations.contains SsapOperations.read = true →
        permissions.contains SsapPermissions.read = true) ∧
      (operations.contains SsapOperations.write = true →
        permissions.contains SsapPermissions.write = true) := by
  simp only [SsapOperations.read, SsapOperations.write, SsapPermissions.read,
    SsapPermissions.write, FlagSet.contains_flag, Permitted]
  constructor
  · intro h
    exact ⟨fun hi => h 0 hi (by decide), fun hi => h 1 hi (by decide)⟩
  · rintro ⟨hread, hwrite⟩ i hi hlt
    have hval : i.val < 2 := hlt
    have hcases : i = 0 ∨ i = 1 := by omega
    rcases hcases with rfl | rfl
    · exact hread hi
    · exact hwrite hi

/-- A property is read back as it was drafted. -/
theorem property_isPartialInv : IsPartialInv SsapPropertyDefinition.describe buildProperty :=
  Node.isPartialInv (Checked.isPartialInv _) descriptor_isPartialInv

/-- A property is accepted as its draft is well formed. -/
theorem buildProperty_isSome {node : Node (ValueHead 4) DescriptorHead} :
    (buildProperty node).isSome = true ↔ PropertyWellFormed node := by
  have hwell : ∀ (head : ValueHead 4) (parts : List SsapDescriptorDefinition),
      (SsapPropertyDefinition.tryNew head.uuid head.permissions head.operations
        head.initialValue head.maximumLen parts).isSome = true ↔
      Fits head.initialValue head.maximumLen ∧ Permitted head.permissions head.operations := by
    intro head parts
    rw [SsapPropertyDefinition.tryNew, Checked.tryNew_isSome, not_or, ← fits_iff, not_or,
      permitted_iff]
    simp only [Bool.and_eq_true, Bool.not_eq_true', not_and, Bool.not_eq_false]
  rw [buildProperty, Node.build_isSome (fun head _ =>
    Fits head.initialValue head.maximumLen ∧ Permitted head.permissions head.operations)
    descriptor_isPartialInv hwell, PropertyWellFormed]
  constructor
  · rintro ⟨hparts, hfits, hpermitted⟩
    exact ⟨hfits, hpermitted, fun d hd => buildDescriptor_isSome.mp (hparts d hd)⟩
  · rintro ⟨hfits, hpermitted, hparts⟩
    exact ⟨fun d hd => buildDescriptor_isSome.mpr (hparts d hd), hfits, hpermitted⟩

/-- A service is read back as it was drafted. -/
theorem ssapService_isPartialInv : IsPartialInv SsapServiceDefinition.describe buildSsapService :=
  NonemptyNode.isPartialInv property_isPartialInv

/-- Every SSAP database reads back as the draft that it was built from, and a draft is
accepted exactly when it is well formed: no server without a service, no service without a
property, every value within its maximum length, and permission for every read and write
that a property supports. -/
theorem ssap_databases :
    IsPartialInv SsapServerDefinition.describe buildSsapServer ∧
      ∀ draft, (buildSsapServer draft).isSome = true ↔ SsapWellFormed draft := by
  refine ⟨NonemptyNode.isPartialInv ssapService_isPartialInv, ?_⟩
  intro draft
  have hservice : ∀ service, (buildSsapService service).isSome = true ↔ service.parts ≠ [] ∧
      ∀ property ∈ service.parts, PropertyWellFormed property := by
    intro service
    have hbuild : (buildSsapService service).isSome = true ↔ _ :=
      NonemptyNode.ofParts_isSome property_isPartialInv
    simp only [buildProperty_isSome] at hbuild
    exact hbuild
  have hserver : (buildSsapServer draft).isSome = true ↔ _ :=
    NonemptyNode.ofParts_isSome ssapService_isPartialInv
  simp only [hservice] at hserver
  exact hserver

end Ssap

end HisiRfCore.AttributeDatabases
