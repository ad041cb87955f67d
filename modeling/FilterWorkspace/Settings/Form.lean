import FilterWorkspace.Reading.OfText
import FilterWorkspace.Settings

/-! The written form of settings. Every field may be left out, and no other may be given. -/

namespace FilterWorkspace

open Reading

variable {ν : Type}

def SharingPolicy.toJson (p : SharingPolicy) : Json := .string p.name

def SharingPolicy.read [Source ν] : Reader ν SharingPolicy := named name all

namespace Settings

def toJson (s : Settings) : Json :=
  .object
    [("label", s.label.elim .null .string), ("timestamp", .bool s.timestamp),
      ("policy", s.policy.toJson)]

structure Given where
  label : Option (Option String)
  timestamp : Option Bool
  policy : Option SharingPolicy

def form [Source ν] : RecordForm ν Given where
  name := "MixerConfig"
  closed := true
  optional := true
  fields :=
    [field "label" Given.label (fun a s => { s with label := some a }) (optional string),
      field "timestamp" Given.timestamp (fun a s => { s with timestamp := some a }) bool,
      field "policy" Given.policy (fun a s => { s with policy := some a }) SharingPolicy.read]

def read [Source ν] : Reader ν Settings := fun x => do
  let s ← form.read ⟨none, none, none⟩ x
  return ⟨s.label.getD none, s.timestamp.getD false, s.policy.getD .allowShared⟩

end Settings
end FilterWorkspace
