import Throned.Model.SingBoxOutbounds

/-!
# Security labels

What a server is said to be protected by, against what the config built for it checks.  The label
and the config read the same fields, and they part at lists of pins without any text: such a list
is not empty, and no pin is written.
-/

set_option autoImplicit false

namespace Throned.Configs.SingBox

open Throned.Library
open Throned.Library.JsonObject

/-! ## What a TLS part checks -/

def CarriesReality (tls : JsonObject) : Prop :=
  ∃ reality, tls.lookup "reality" = some (.obj reality) ∧
    reality.lookup "enabled" = some (.bool true)

def CarriesPins (tls : JsonObject) : Prop :=
  (∃ pin pins, tls.lookup "certificate_sha256" = some (.arr (pin :: pins))) ∨
    ∃ pin pins, tls.lookup "certificate_public_key_sha256" = some (.arr (pin :: pins))

/-- An enabled part that verifies the server. -/
def Verifies (tls : JsonObject) : Prop :=
  tls.lookup "enabled" = some (.bool true) ∧
    (CarriesReality tls ∨ CarriesPins tls ∨ tls.lookup "insecure" = none)

/-! ## Lookups -/

section Lookups

variable (key k : String)

@[simp] theorem lookup_textMember (value : Text) :
    (textMember key value).lookup k = if value ≠ [] ∧ k = key then some (.str value) else none :=
  lookup_member key k _

@[simp] theorem lookup_flagMember (value : Bool) :
    (flagMember key value).lookup k =
      if value = true ∧ k = key then some (.bool true) else none :=
  lookup_member key k _

@[simp] theorem lookup_listMember (items : List Text) :
    (listMember key items).lookup k =
      if items ≠ [] ∧ k = key then some (QListStr2QJsonArray items) else none :=
  lookup_member key k _

@[simp] theorem lookup_countMember (value : ℤ) :
    (countMember key value).lookup k = if value > 0 ∧ k = key then some (.num value) else none :=
  lookup_member key k _

end Lookups

section Parts

variable (qt : QtFunctions) (s : Settings) (tls : TLS)

theorem lookup_spoofMembers {k : String} (hspoof : k ≠ "spoof") (hmethod : k ≠ "spoof_method") :
    (spoofMembers qt s tls).lookup k = none := by
  unfold spoofMembers
  dsimp only
  split
  · rw [List.lookup_append, lookup_textMember, lookup_member, if_neg (fun h => hspoof h.2),
      if_neg (fun h => hmethod h.2)]
    rfl
  · rfl

theorem lookup_utlsMember {k : String} (hutls : k ≠ "utls") :
    (utlsMember s tls).lookup k = none := by
  unfold utlsMember
  dsimp only
  split
  · rw [List.lookup_cons, beq_false_of_ne hutls]
    rfl
  · rw [lookup_member, if_neg (fun h => hutls h.2)]

/-- **The members of the TLS part** that say how the server is verified. -/
structure Built (object : JsonObject) : Prop where
  enabled : object.lookup "enabled" = some (.bool true)
  insecure : object.lookup "insecure" =
    if tls.insecure || s.skip_cert then some (.bool true) else none
  certificate_sha256 : object.lookup "certificate_sha256" =
    if tls.certificate_sha256 ≠ [] then some (QListStr2QJsonArray tls.certificate_sha256) else none
  certificate_public_key_sha256 : object.lookup "certificate_public_key_sha256" =
    if tls.certificate_public_key_sha256 ≠ [] then
      some (QListStr2QJsonArray tls.certificate_public_key_sha256)
    else none
  reality : object.lookup "reality" =
    if (tls.reality.Build qt).object ≠ [] then some (.obj (tls.reality.Build qt).object) else none

theorem built_Build (h : tls.enabled = true) : Built qt s tls (tls.Build qt s).object := by
  unfold TLS.Build
  rw [h, Bool.not_true, if_neg Bool.false_ne_true]
  constructor
  all_goals
    simp [List.lookup_append, List.lookup_cons, lookup_spoofMembers, lookup_utlsMember]

/-- The transport takes at most uTLS away. -/
theorem built_TlsForTransport {object : JsonObject} (h : Built qt s tls object) (type : String) :
    Built qt s tls (TlsForTransport object type) := by
  unfold TlsForTransport
  split
  · constructor
    · rw [lookup_remove, if_neg (by decide), h.enabled]
    · rw [lookup_remove, if_neg (by decide), h.insecure]
    · rw [lookup_remove, if_neg (by decide), h.certificate_sha256]
    · rw [lookup_remove, if_neg (by decide), h.certificate_public_key_sha256]
    · rw [lookup_remove, if_neg (by decide), h.reality]
  · exact h

theorem Reality.Build_object (reality : Reality) :
    ((reality.Build qt).object = [] ↔ reality.enabled = false ∧ reality.public_key = []) ∧
      ((reality.Build qt).object ≠ [] →
        (reality.Build qt).object.lookup "enabled" = some (.bool true)) := by
  unfold Reality.Build
  by_cases hset : (!reality.public_key.isEmpty || reality.enabled) = true
  · rw [if_pos hset]
    have hneither : ¬ (reality.enabled = false ∧ reality.public_key = []) := by
      rintro ⟨henabled, hkey⟩
      rw [henabled, hkey] at hset
      cases hset
    dsimp only
    split
    · exact ⟨⟨fun hnil => by simp at hnil, fun h => absurd h hneither⟩, fun _ => rfl⟩
    · exact ⟨⟨fun hnil => by simp at hnil, fun h => absurd h hneither⟩, fun _ => rfl⟩
  · rw [if_neg hset]
    simp only [Bool.or_eq_true, Bool.not_eq_true', List.isEmpty_eq_false_iff, not_or, not_not,
      Bool.not_eq_true] at hset
    exact ⟨⟨fun _ => ⟨hset.2, hset.1⟩, fun _ => rfl⟩, fun h => absurd rfl h⟩

/-- Pins with text are what is written. -/
theorem exists_pin_iff (items : List Text) :
    (∃ pin pins, (if items ≠ [] then some (QListStr2QJsonArray items) else none) =
      some (Json.arr (pin :: pins))) ↔ ∃ item ∈ items, trimSpace item ≠ [] := by
  unfold QListStr2QJsonArray
  constructor
  · rintro ⟨pin, pins, h⟩
    split at h
    · have hpins := Json.arr.inj (Option.some_inj.mp h)
      have hmem : pin ∈ (items.filter fun item => !(trimSpace item).isEmpty).map Json.str :=
        hpins ▸ List.mem_cons_self
      obtain ⟨item, hitem, -⟩ := List.mem_map.mp hmem
      exact ⟨item, List.mem_of_mem_filter hitem, by simpa using (List.mem_filter.mp hitem).2⟩
    · cases h
  · rintro ⟨item, hitem, htext⟩
    rw [if_pos (List.ne_nil_of_mem hitem)]
    have hmem : Json.str item ∈
        (items.filter fun item => !(trimSpace item).isEmpty).map Json.str :=
      List.mem_map_of_mem (List.mem_filter.mpr ⟨hitem, by simpa using htext⟩)
    obtain ⟨pin, pins, hpins⟩ := List.exists_cons_of_ne_nil (List.ne_nil_of_mem hmem)
    exact ⟨pin, pins, by rw [hpins]⟩

/-- A pin with text in one of the two lists. -/
def HasPin : Prop :=
  ∃ pin ∈ tls.certificate_sha256 ++ tls.certificate_public_key_sha256, trimSpace pin ≠ []

/-- **How a built part verifies the server**, by the fields. -/
theorem Built.verifies_iff {object : JsonObject} (h : Built qt s tls object) :
    Verifies object ↔ tls.reality.enabled = true ∨ tls.reality.public_key ≠ [] ∨ HasPin tls ∨
      (tls.insecure = false ∧ s.skip_cert = false) := by
  obtain ⟨hnil, henabled⟩ := Reality.Build_object qt tls.reality
  have hreality : CarriesReality object ↔
      tls.reality.enabled = true ∨ tls.reality.public_key ≠ [] := by
    unfold CarriesReality
    rw [h.reality]
    by_cases hobject : (tls.reality.Build qt).object = []
    · rw [if_neg (not_not.mpr hobject)]
      simp [(hnil.mp hobject).1, (hnil.mp hobject).2]
    · have hset : tls.reality.enabled = true ∨ tls.reality.public_key ≠ [] := by
        by_contra hneither
        rw [not_or, Bool.not_eq_true, not_not] at hneither
        exact hobject (hnil.mpr hneither)
      rw [if_pos hobject]
      exact iff_of_true ⟨_, rfl, henabled hobject⟩ hset
  have hpins : CarriesPins object ↔ HasPin tls := by
    unfold CarriesPins HasPin
    rw [h.certificate_sha256, h.certificate_public_key_sha256, exists_pin_iff, exists_pin_iff]
    simp only [List.mem_append, or_and_right, exists_or]
  have hinsecure : object.lookup "insecure" = none ↔
      tls.insecure = false ∧ s.skip_cert = false := by
    rw [h.insecure]
    cases tls.insecure <;> cases s.skip_cert <;> simp
  unfold Verifies
  rw [hreality, hpins, hinsecure, and_iff_right h.enabled, or_assoc]

end Parts

/-! ## The part of a config -/

section Config

variable (qt : QtFunctions) (s : Settings) (o : Outbound)

/-- The TLS part that `Build` puts into the config. -/
def tlsPart : Option JsonObject :=
  if (o.tls.Build qt s).object ≠ [] then
    some (TlsForTransport (o.tls.Build qt s).object o.transport.type)
  else none

theorem tlsPart_eq_none_iff : tlsPart qt s o = none ↔ o.tls.enabled = false := by
  unfold tlsPart TLS.Build
  cases henabled : o.tls.enabled with
  | false => simp
  | true => simp

/-- The part verifies the server. -/
def PartVerifies : Prop := ∃ tls, tlsPart qt s o = some tls ∧ Verifies tls

theorem partVerifies_iff :
    PartVerifies qt s o ↔ o.tls.enabled = true ∧ (o.tls.reality.enabled = true ∨
      o.tls.reality.public_key ≠ [] ∨ HasPin o.tls ∨
        (o.tls.insecure = false ∧ s.skip_cert = false)) := by
  unfold PartVerifies
  cases henabled : o.tls.enabled with
  | false =>
    rw [(tlsPart_eq_none_iff qt s o).mpr henabled]
    simp
  | true =>
    have hbuilt := built_TlsForTransport qt s o.tls (built_Build qt s o.tls henabled)
      o.transport.type
    have hpart : tlsPart qt s o =
        some (TlsForTransport (o.tls.Build qt s).object o.transport.type) := by
      unfold tlsPart
      rw [if_pos]
      intro hnil
      have hnone : tlsPart qt s o = none := by
        unfold tlsPart
        rw [if_neg (not_not.mpr hnil)]
      rw [tlsPart_eq_none_iff, henabled] at hnone
      cases hnone
    rw [hpart, and_iff_right rfl, ← hbuilt.verifies_iff]
    constructor
    · rintro ⟨tls, heq, hverifies⟩
      exact Option.some_inj.mp heq ▸ hverifies
    · exact fun hverifies => ⟨_, rfl, hverifies⟩

theorem notMem_keys_member {c : Prop} [Decidable c] {key k : String} (h : k ≠ key) (value : Json) :
    k ∉ JsonObject.keys (member c key value) := fun hmem => h (mem_keys_member.mp hmem).2

theorem tls_notMem_dialFields (dial : DialFields) : "tls" ∉ JsonObject.keys dial.ExportToJson := by
  unfold DialFields.ExportToJson flagMember textMember
  simp

/-- Nothing but the TLS part stands under its key. -/
theorem lookup_tls_buildBase : (buildBase qt s o).object.lookup "tls" = none := by
  have hbase : (merge (textMember "server" o.server ++ countMember "server_port" o.server_port)
      o.dialFields.ExportToJson).lookup "tls" = none := by
    rw [lookup_merge_of_notMem _ (tls_notMem_dialFields o.dialFields), List.lookup_append]
    simp
  unfold buildBase
  dsimp only
  split
  · split
    · exact hbase
    · rw [lookup_insert, if_neg (by decide), lookup_remove, if_neg (by decide), hbase]
  · exact hbase

theorem lookup_merge_of_none {object other : JsonObject} {key : String}
    (hobject : object.lookup key = none) (hother : other.lookup key = none) :
    (merge object other).lookup key = none := by
  rw [lookup_merge_of_notMem, hobject]
  intro hmem
  obtain ⟨m, hm, rfl⟩ := List.mem_map.mp hmem
  exact absurd (List.lookup_eq_none_iff.mp hother m hm) (by simp)

theorem lookup_tls_buildProtocol (protocol : Protocol) {base : JsonObject}
    (hbase : base.lookup "tls" = none) : (buildProtocol protocol base).lookup "tls" = none := by
  unfold buildProtocol
  cases protocol with
  | vless uuid flow packet_encoding => simp [lookup_merge_of_none _ hbase]
  | vmess uuid security alter_id global_padding authenticated_length packet_encoding =>
    simp [lookup_merge_of_none _ hbase]
  | trojan password => simp [lookup_merge_of_none _ hbase]

theorem lookup_tls_buildParts {object : JsonObject} (hobject : object.lookup "tls" = none)
    (h : (buildParts qt s o object).error = []) :
    (buildParts qt s o object).object.lookup "tls" = (tlsPart qt s o).map .obj := by
  unfold buildParts at h ⊢
  dsimp only at h ⊢
  by_cases htls : (!(o.tls.Build qt s).error.isEmpty) = true
  · rw [if_pos htls] at h
    dsimp only at h
    rw [h] at htls
    cases htls
  rw [if_neg htls] at h ⊢
  by_cases htransport : (!(o.transport.Build qt).error.isEmpty) = true
  · rw [if_pos htransport] at h
    dsimp only at h
    rw [h] at htransport
    cases htransport
  rw [if_neg htransport] at h ⊢
  by_cases hmux : (!(o.multiplex.Build s).error.isEmpty) = true
  · rw [if_pos hmux] at h
    dsimp only at h
    rw [h] at hmux
    cases hmux
  rw [if_neg hmux]
  unfold tlsPart
  by_cases hpart : (o.tls.Build qt s).object ≠ []
  · simp [hpart]
  · rw [if_neg hpart]
    simp [hpart, hobject]

/-- **The config** that is built holds that part. -/
theorem lookup_tls_Build (h : (o.Build qt s).error = []) :
    (o.Build qt s).object.lookup "tls" = (tlsPart qt s o).map .obj := by
  unfold Outbound.Build at h ⊢
  dsimp only at h ⊢
  by_cases hbase : (!(buildBase qt s o).error.isEmpty) = true
  · rw [if_pos hbase] at h
    dsimp only at h
    rw [h] at hbase
    cases hbase
  rw [if_neg hbase] at h ⊢
  exact lookup_tls_buildParts qt s o
    (lookup_tls_buildProtocol o.protocol (lookup_tls_buildBase qt s o)) h

end Config

/-! ## The label -/

section Label

variable (qt : QtFunctions) (s : Settings) (o : Outbound)

/-- Lists of pins, whatever their items. -/
def ListsPins (tls : TLS) : Prop :=
  tls.certificate_sha256 ++ tls.certificate_public_key_sha256 ≠ []

/-- What is reported of an outbound whose protection is as given. -/
structure Reported (info : SecurityInfo) (secure caVerified : Prop) : Prop where
  publicLeg : info.publicLeg = false
  level : info.isDangerous = decide (info.level ≠ .Secure)
  secure : info.level = .Secure ↔ secure
  caVerified : info.caVerified = true ↔ caVerified

theorem reported_SecurityFromTLS (transport : Text) :
    Reported (SecurityFromTLS qt o transport)
      (o.tls.enabled = true ∧
        (o.tls.reality.enabled = true ∨ ListsPins o.tls ∨ o.tls.insecure = false))
      (o.tls.enabled = true ∧ o.tls.reality.enabled = false ∧ ¬ ListsPins o.tls ∧
        o.tls.insecure = false) := by
  have hpins : (!o.tls.certificate_sha256.isEmpty ||
      !o.tls.certificate_public_key_sha256.isEmpty) = true ↔ ListsPins o.tls := by
    unfold ListsPins
    simp only [Bool.or_eq_true, Bool.not_eq_true', List.isEmpty_eq_false_iff, ne_eq,
      List.append_eq_nil_iff]
    tauto
  unfold SecurityFromTLS
  by_cases henabled : o.tls.enabled = true
  · rw [if_pos henabled]
    by_cases hreality : o.tls.reality.enabled = true
    · rw [if_pos hreality]
      exact ⟨rfl, rfl, by simp [henabled, hreality], by simp [hreality]⟩
    · rw [if_neg hreality]
      by_cases hlists : (!o.tls.certificate_sha256.isEmpty ||
          !o.tls.certificate_public_key_sha256.isEmpty) = true
      · rw [if_pos hlists]
        rw [hpins] at hlists
        exact ⟨rfl, rfl, by simp [henabled, hlists], by simp [hlists]⟩
      · rw [if_neg hlists]
        rw [hpins] at hlists
        by_cases hinsecure : o.tls.insecure = true
        · rw [if_pos hinsecure]
          exact ⟨rfl, rfl, by simp [hreality, hlists, hinsecure], by simp [hinsecure]⟩
        · rw [if_neg hinsecure]
          rw [Bool.not_eq_true] at hreality hinsecure
          exact ⟨rfl, rfl, by simp [henabled, hinsecure],
            by simp [henabled, hreality, hlists, hinsecure]⟩
  · rw [if_neg henabled]
    exact ⟨rfl, rfl, by simp [henabled], by simp [henabled]⟩

/-- A label without TLS may be changed, and stays dangerous. -/
theorem Reported.relabel {info : SecurityInfo} {secure caVerified : Prop}
    (h : Reported info secure caVerified) (hnone : info.level = .None) (label : Text) :
    Reported { info with label, level := .Weak } secure caVerified where
  publicLeg := h.publicLeg
  level := rfl
  secure := by
    rw [← h.secure, hnone]
    simp
  caVerified := h.caVerified

theorem reported_GetSecurity :
    Reported (GetSecurity qt o)
      (o.tls.enabled = true ∧
        (o.tls.reality.enabled = true ∨ ListsPins o.tls ∨ o.tls.insecure = false))
      (o.tls.enabled = true ∧ o.tls.reality.enabled = false ∧ ¬ ListsPins o.tls ∧
        o.tls.insecure = false) := by
  have hreported := reported_SecurityFromTLS qt o (DisplayTransportName qt o.transport.type)
  unfold GetSecurity
  cases o.protocol with
  | vless | trojan => exact hreported
  | vmess uuid security alter_id global_padding authenticated_length packet_encoding =>
    dsimp only
    split
    · rename_i hnone
      exact hreported.relabel hnone.1 _
    · exact hreported

/-- **When a server is called secure**, by the fields. -/
theorem level_eq_Secure_iff :
    (EffectiveSecurity qt s o).level = .Secure ↔
      IsPrivateHost qt o.server = true ∨ (o.tls.enabled = true ∧ (o.tls.reality.enabled = true ∨
        ListsPins o.tls ∨ (o.tls.insecure = false ∧ s.skip_cert = false))) := by
  have hreported := reported_GetSecurity qt o
  have hglobal : Reported
      (if (GetSecurity qt o).caVerified && s.skip_cert then
        { GetSecurity qt o with
          label := qt.translate "Compromised" [], level := .Weak, compromised := true }
      else GetSecurity qt o)
      (o.tls.enabled = true ∧ (o.tls.reality.enabled = true ∨ ListsPins o.tls ∨
        (o.tls.insecure = false ∧ s.skip_cert = false)))
      ((GetSecurity qt o).caVerified = true) := by
    by_cases hskip : ((GetSecurity qt o).caVerified && s.skip_cert) = true
    · rw [if_pos hskip]
      rw [Bool.and_eq_true] at hskip
      have hca := hreported.caVerified.mp hskip.1
      refine ⟨hreported.publicLeg, rfl, ?_, Iff.rfl⟩
      simp [hca.2.1, hca.2.2.1, hskip.2]
    · rw [if_neg hskip]
      refine ⟨hreported.publicLeg, hreported.level, ?_, Iff.rfl⟩
      rw [hreported.secure]
      have hca := hreported.caVerified
      rw [Bool.and_eq_true, not_and, Bool.not_eq_true, hca] at hskip
      constructor
      · rintro ⟨henabled, hreality | hpins | hinsecure⟩
        · exact ⟨henabled, .inl hreality⟩
        · exact ⟨henabled, .inr (.inl hpins)⟩
        · refine ⟨henabled, ?_⟩
          by_cases hreality : o.tls.reality.enabled = true
          · exact .inl hreality
          · by_cases hpins : ListsPins o.tls
            · exact .inr (.inl hpins)
            · exact .inr (.inr ⟨hinsecure,
                hskip ⟨henabled, Bool.not_eq_true _ ▸ hreality, hpins, hinsecure⟩⟩)
      · rintro ⟨henabled, hreality | hpins | hinsecure⟩
        · exact ⟨henabled, .inl hreality⟩
        · exact ⟨henabled, .inr (.inl hpins)⟩
        · exact ⟨henabled, .inr (.inr hinsecure.1)⟩
  unfold EffectiveSecurity
  dsimp only
  rw [← hglobal.secure]
  generalize (if ((GetSecurity qt o).caVerified && s.skip_cert) = true then
    { GetSecurity qt o with
      label := qt.translate "Compromised" [], level := SecurityLevel.Weak, compromised := true }
    else GetSecurity qt o) = info at hglobal
  by_cases hsecure : info.level = .Secure
  · have hsafe : info.isDangerous = false := by
      rw [hglobal.level, hsecure]
      rfl
    rw [hsafe, Bool.not_false, if_pos rfl]
    exact iff_of_true hsecure (.inr hsecure)
  · have hdangerous : info.isDangerous = true := by
      rw [hglobal.level]
      exact decide_eq_true hsecure
    rw [hdangerous, Bool.not_true, if_neg Bool.false_ne_true]
    unfold WithPrivateServer
    rw [hdangerous, hglobal.publicLeg, or_iff_left hsecure]
    cases IsPrivateHost qt o.server with
    | true => simp
    | false => simp [hsecure]

/-- **The label agrees with the config**: what is called secure is private or verified, and a part
that is missing or does not verify a public server is not called secure. -/
def LabelAgrees : Prop :=
  ((EffectiveSecurity qt s o).level = .Secure →
    IsPrivateHost qt o.server = true ∨
      ((o.Build qt s).error = [] →
        ∃ tls, (o.Build qt s).object.lookup "tls" = some (.obj tls) ∧ Verifies tls)) ∧
  (¬ PartVerifies qt s o → IsPrivateHost qt o.server = false →
    (EffectiveSecurity qt s o).level ≠ .Secure)

/-- A public server with lists of pins that hold no pin, where nothing else verifies it. -/
def BlankPins : Prop :=
  IsPrivateHost qt o.server = false ∧ o.tls.enabled = true ∧ o.tls.reality.enabled = false ∧
    o.tls.reality.public_key = [] ∧ ListsPins o.tls ∧ ¬ HasPin o.tls ∧
      (o.tls.insecure = true ∨ s.skip_cert = true)

theorem listsPins_of_hasPin {tls : TLS} (h : HasPin tls) : ListsPins tls := by
  obtain ⟨pin, hpin, -⟩ := h
  exact List.ne_nil_of_mem hpin

theorem not_labelAgrees (h : BlankPins qt s o) : ¬ LabelAgrees qt s o := by
  obtain ⟨hpublic, henabled, hreality, hkey, hlists, hnone, hinsecure⟩ := h
  rintro ⟨-, hmissing⟩
  refine hmissing ?_ hpublic
    ((level_eq_Secure_iff qt s o).mpr (.inr ⟨henabled, .inr (.inl hlists)⟩))
  rw [partVerifies_iff]
  rintro ⟨-, hset | hset | hset | ⟨hflag, hskip⟩⟩
  · rw [hreality] at hset
    cases hset
  · exact hset hkey
  · exact hnone hset
  · rcases hinsecure with hset | hset
    · rw [hflag] at hset
      cases hset
    · rw [hskip] at hset
      cases hset

/-- What is called secure is private or verified. -/
theorem private_or_partVerifies (h : ¬ BlankPins qt s o)
    (hsecure : (EffectiveSecurity qt s o).level = .Secure) :
    IsPrivateHost qt o.server = true ∨ PartVerifies qt s o := by
  have hpart := partVerifies_iff qt s o
  rcases (level_eq_Secure_iff qt s o).mp hsecure with
    hprivate | ⟨henabled, hreality | hlists | hcertified⟩
  · exact .inl hprivate
  · exact .inr (hpart.mpr ⟨henabled, .inl hreality⟩)
  · rw [or_iff_not_imp_left, Bool.not_eq_true]
    intro hpublic
    refine hpart.mpr ⟨henabled, ?_⟩
    by_contra hnot
    simp only [not_or, not_and, Bool.not_eq_true, Bool.not_eq_false] at hnot
    obtain ⟨hreality, hkey, hnone, hinsecure⟩ := hnot
    refine h ⟨hpublic, henabled, hreality, not_not.mp hkey, hlists, hnone, ?_⟩
    by_cases hflag : o.tls.insecure = true
    · exact .inl hflag
    · exact .inr (hinsecure (Bool.not_eq_true _ ▸ hflag))
  · exact .inr (hpart.mpr ⟨henabled, .inr (.inr (.inr hcertified))⟩)

/-- **The label is wrong of blank pins only.** -/
theorem labelAgrees_iff : LabelAgrees qt s o ↔ ¬ BlankPins qt s o := by
  constructor
  · exact fun hagrees hblank => not_labelAgrees qt s o hblank hagrees
  · intro hblank
    constructor
    · intro hsecure
      refine (private_or_partVerifies qt s o hblank hsecure).imp_right fun hpart herror => ?_
      obtain ⟨tls, htls, hverifies⟩ := hpart
      exact ⟨tls, by rw [lookup_tls_Build qt s o herror, htls]; rfl, hverifies⟩
    · intro hmissing hpublic hsecure
      rcases private_or_partVerifies qt s o hblank hsecure with hprivate | hpart
      · rw [hpublic] at hprivate
        cases hprivate
      · exact hmissing hpart

end Label

/-! ## A blank pin -/

/-- Texts in lower case, and no addresses. -/
def plainQt : QtFunctions where
  toLower := fun text => text
  toUpper := fun text => text
  toAce := fun text => text
  toInt := fun _ => 0
  equalFolded := fun a b => a == b
  IntOrRange := fun _ _ _ => []
  ToInt := fun _ => none
  Ip := fun _ => ['!']
  translate := fun text _ => text.toList
  Address := Empty
  setAddress := fun _ => none
  toIPv4Address := fun _ => none
  isInSubnet := fun _ _ => false

/-- A server that is not verified, with one pin that holds no text. -/
def blankPin : Outbound where
  protocol := .vless ['u'] [] []
  server := ['a', '.', 'c', 'o', 'm']
  server_port := 443
  tls := { enabled := true, insecure := true, certificate_sha256 := [[]] }

/-- It is called secure, and its config takes any certificate. -/
theorem blankPin_calledSecure : ¬ LabelAgrees plainQt {} blankPin := by
  refine not_labelAgrees plainQt {} blankPin ⟨by decide +kernel, rfl, rfl, rfl, ?_, ?_, .inl rfl⟩
  · exact List.cons_ne_nil _ _
  · rintro ⟨pin, hpin, htext⟩
    rw [List.mem_singleton.mp hpin] at htext
    exact htext rfl

end Throned.Configs.SingBox
