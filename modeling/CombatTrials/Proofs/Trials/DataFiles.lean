import CombatTrials.Arena.Encounter
import CombatTrials.Proofs.Script.Writing
import CombatTrials.Trials.Settings

/-!
# Data files mean what they say

However settings or an encounter are written in object notation, the same settings or encounter are
read: with the fields in any order, with or without those that have their standard value, with
fields that nobody declares, and with a comma behind the last field or item
(`read?_eq_of_isWritten`). The script of an encounter may be of any size, as long as the text opens
no more levels than the notation allows.
-/

namespace CombatTrials

open Text.Ron (Datum Document Shape Slot ReadAt IsWritten format)

namespace Arena

/-- The data that stand for a fighter. -/
def Fighter.shape (f : Fighter) : Shape :=
  .record "ActorSpec"
    [.needed "name" (.text f.name), .needed "hp" (.natural f.hp.toNat),
      .needed "attack" (.natural f.attack.toNat),
      .omittable "defense" (.natural f.defense.toNat) (f.defense = 0)]

/-- The data that stand for an encounter. -/
def Encounter.shape (implicitSome : Bool) (e : Encounter) : Shape :=
  .record "ArenaSpec"
    [.needed "name" (.text e.name), .needed "party" (.list (e.party.map Fighter.shape)),
      .needed "boss" e.boss.shape,
      .omittable "strategy"
        (.optional implicitSome (e.strategy.map (Script.Program.shape implicitSome)))
        (e.strategy = none)]

variable {room : Nat}

/-- A fighter is read from whatever data stand for it. -/
theorem Fighter.read?_of_shape (implicitSome : Bool) (f : Fighter) :
    ReadAt room f.shape (Fighter.read? (format implicitSome)) f := by
  intro d hd
  obtain ⟨nodes, hnodes, hname, hhp, hattack, hdefense⟩ :=
    ReadAt.record implicitSome 0 hd ["name", "hp", "attack", "defense"] rfl (by decide)
  have hname := hname.required (ReadAt.text implicitSome f.name)
  have hhp := hhp.required (ReadAt.word32 implicitSome f.hp)
  have hattack := hattack.required (ReadAt.word32 implicitSome f.attack)
  have hdefense := hdefense.defaulted (ReadAt.word32 implicitSome f.defense) id
  simp [Fighter.read?, hnodes, hname, hhp, hattack, hdefense]

/-- An encounter is read from whatever data stand for it, its script included. -/
theorem Encounter.read?_of_shape (implicitSome : Bool) (e : Encounter) :
    ReadAt room (e.shape implicitSome) (Encounter.read? (format implicitSome)) e := by
  intro d hd
  obtain ⟨nodes, hnodes, hname, hparty, hboss, hstrategy⟩ :=
    ReadAt.record implicitSome 0 hd ["name", "party", "boss", "strategy"] rfl (by decide)
  have hname := hname.required (ReadAt.text implicitSome e.name)
  have hparty :=
    hparty.required (ReadAt.listOf implicitSome e.party fun f => f.read?_of_shape implicitSome)
  have hboss := hboss.required (e.boss.read?_of_shape implicitSome)
  have hstrategy := hstrategy.defaulted
    (ReadAt.optionalOf implicitSome e.strategy fun p => p.read?_of_shape implicitSome) id
  simp [Encounter.read?, hnodes, hname, hparty, hboss, hstrategy]

end Arena

namespace Trials

/-- The data that stand for settings. -/
def Settings.shape (implicitSome : Bool) (s : Settings) : Shape :=
  .record "SimulatorConfig"
    [.omittable "workers" (.optional implicitSome (s.workers.map fun n => .natural n.toNat))
        (s.workers = none),
      .omittable "worker_reserve" (.natural s.workerReserve.toNat) (s.workerReserve = 2),
      .omittable "chunk_size" (.natural s.chunkSize.toNat) (s.chunkSize = 10000),
      .omittable "channel_capacity" (.natural s.channelCapacity.toNat) (s.channelCapacity = 10000),
      .omittable "update_interval" (.natural s.updateInterval.toNat) (s.updateInterval = 10000)]

variable {room : Nat}

/-- Settings are read from whatever data stand for them. -/
theorem Settings.read?_of_shape (implicitSome : Bool) (s : Settings) :
    ReadAt room (s.shape implicitSome) (Settings.read? (format implicitSome)) s := by
  intro d hd
  obtain ⟨nodes, hnodes, hworkers, hreserve, hchunk, hcapacity, hinterval⟩ :=
    ReadAt.record implicitSome 0 hd
      ["workers", "worker_reserve", "chunk_size", "channel_capacity", "update_interval"] rfl
      (by decide)
  -- each field is there or has its default, and is read on its own
  have hworkers :=
    hworkers.defaulted (ReadAt.optionalOf implicitSome s.workers (ReadAt.word64 implicitSome)) id
  have hreserve := hreserve.defaulted (ReadAt.word64 implicitSome s.workerReserve) id
  have hchunk := hchunk.defaulted (ReadAt.word64 implicitSome s.chunkSize) id
  have hcapacity := hcapacity.defaulted (ReadAt.word64 implicitSome s.channelCapacity) id
  have hinterval := hinterval.defaulted (ReadAt.word32 implicitSome s.updateInterval) id
  simp [Settings.read?, hnodes, hworkers, hreserve, hchunk, hcapacity, hinterval]

/-- Settings and encounters are read from every text in which they are written. -/
theorem read?_eq_of_isWritten :
    (∀ (s : Settings) (text : String), IsWritten (fun implicitSome => s.shape implicitSome) text →
      Text.Ron.read? Settings.read? text = some s) ∧
    ∀ (e : Arena.Encounter) (text : String),
      IsWritten (fun implicitSome => e.shape implicitSome) text →
      Text.Ron.read? Arena.Encounter.read? text = some e :=
  ⟨fun s _ h => Text.Ron.read?_of_isWritten h fun implicitSome => s.read?_of_shape implicitSome,
    fun e _ h => Text.Ron.read?_of_isWritten h fun implicitSome => e.read?_of_shape implicitSome⟩

/-- Settings with two fields left out, the others the last first, behind a field that nobody
declares and with a comma behind them. -/
theorem isWritten_settings :
    IsWritten
      (fun implicitSome => Settings.shape implicitSome { workers := some 2, chunkSize := 64 })
      "SimulatorConfig(note: [], chunk_size: 64, workers: Some(2),)" := by
  have hspelled : (Document.mk false (.group (some ⟨"SimulatorConfig", false⟩) (.fields
      [("note", .list []), ("chunk_size", .number "64"),
        ("workers", .group (some ⟨"Some", false⟩) (.items [.number "2"]))]))).Spelled _ :=
    ⟨[], [], _, .none,
      .named rfl (.fields
        (.cons (w := ⟨"note", false⟩) (.list .nil)
        (.cons (w := ⟨"chunk_size", false⟩) (.number "64")
        (.cons (w := ⟨"workers", false⟩) (.named rfl (.items (.last (.number "2")))) .nil)))),
      rfl, rfl⟩
  -- the slots take the two fields they declare, which stand last first, and leave the note
  refine ⟨_, _, by decide +kernel, hspelled, .named false (.fields
    ⟨[("workers", .group (some ⟨"Some", false⟩) (.items [.number "2"])),
        ("chunk_size", .number "64")],
      [("note", .list [])], List.reverse_perm [_, _, _], ?_, ?_⟩)⟩
  · exact .given (.some (Shape.natural_toString 2 125))
      (.omitted rfl (.given (Shape.natural_toString 64 126) (.omitted rfl (.omitted rfl .nil))))
  · intro field hfield
    obtain rfl := List.mem_singleton.mp hfield
    exact ⟨by decide, .list (by decide) (by simp)⟩

/-- An encounter with a strategy, its fields the last first behind one that nobody declares. The
boss has no defense and the branch nothing to do otherwise, so neither is written. -/
theorem isWritten_encounter :
    IsWritten (fun implicitSome => Arena.Encounter.shape implicitSome
      ⟨"D", [], ⟨"B", 40, 3, 0⟩, some ⟨none, .branch (.identifier "x") (.block []) none⟩⟩)
      "(id: 7, strategy: Some((body: If(then_branch: Block([]), condition: Identifier(\"x\")))),
        boss: (attack: 3, hp: 0x28, name: \"B\",), party: [], name: \"D\")" := by
  have hbranch : Datum.Spelled (.group (some ⟨"If", false⟩) (.fields
      [("then_branch", .group (some ⟨"Block", false⟩) (.items [.list []])),
        ("condition", .group (some ⟨"Identifier", false⟩) (.items [.text "x"]))])) _ :=
    .named rfl (.fields
      (.cons (w := ⟨"then_branch", false⟩) (.named rfl (.items (.last (.list .nil))))
      (.last (w := ⟨"condition", false⟩) (.named rfl (.items (.last (.text "x")))))))
  have hstrategy : Datum.Spelled
      (.group (some ⟨"Some", false⟩) (.items [.group none (.fields [("body", _)])])) _ :=
    .named rfl (.items (.last (.group (.fields (.last (w := ⟨"body", false⟩) hbranch)))))
  have hboss : Datum.Spelled (.group none (.fields
      [("attack", .number "3"), ("hp", .number "0x28"), ("name", .text "B")])) _ :=
    .group (.fields
      (.cons (w := ⟨"attack", false⟩) (.number "3")
      (.cons (w := ⟨"hp", false⟩) (.number "0x28")
      (.cons (w := ⟨"name", false⟩) (.text "B") .nil))))
  have hspelled :
      (Document.mk false (.group none (.fields [("id", .number "7"), ("strategy", _), ("boss", _),
        ("party", .list []), ("name", .text "D")]))).Spelled _ :=
    ⟨[], [], _, .none,
      .group (.fields
        (.cons (w := ⟨"id", false⟩) (.number "7")
        (.cons (w := ⟨"strategy", false⟩) hstrategy
        (.cons (w := ⟨"boss", false⟩) hboss
        (.cons (w := ⟨"party", false⟩) (.list .nil)
        (.last (w := ⟨"name", false⟩) (.text "D"))))))),
      rfl, rfl⟩
  -- the branch without an alternative and the boss without a defense leave out one slot each
  have hbranchShape : (Script.Statement.branch (.identifier "x") (.block []) none).shape false 123
      (.group (some ⟨"If", false⟩)
        (.fields [("then_branch", .group (some ⟨"Block", false⟩) (.items [.list []])),
          ("condition", .group (some ⟨"Identifier", false⟩) (.items [.text "x"]))])) := by
    refine .intro false (.fields ⟨[_, _], [], List.reverse_perm [_, _], ?_, by simp⟩)
    exact .given (.intro false rfl)
      (.given (.intro false (.intro (by decide) .nil)) (.omitted rfl .nil))
  have hbossShape : Arena.Fighter.shape ⟨"B", 40, 3, 0⟩ 126 (.group none (.fields
      [("attack", .number "3"), ("hp", .number "0x28"), ("name", .text "B")])) := by
    have hdigits : Text.Ron.AreDigits 16 40 ['2', '8'] :=
      ⟨by decide, by decide, [2, 8], .cons (by decide) (.cons (by decide) .nil), rfl⟩
    have hhp : Shape.natural 40 124 (.number "0x28") := ⟨"0x28", rfl, .hexadecimal hdigits⟩
    refine .plain (.fields ⟨[_, _, _], [], List.reverse_perm [_, _, _], ?_, by simp⟩)
    exact .given rfl (.given hhp (.given (Shape.natural_toString 3 124) (.omitted rfl .nil)))
  refine ⟨_, _, by decide +kernel, hspelled, .plain (.fields
    ⟨[("name", _), ("party", _), ("boss", _), ("strategy", _)], [("id", _)],
      List.reverse_perm [_, _, _, _, _], ?_, ?_⟩)⟩
  · refine .given rfl (.given (.intro (by decide) .nil) (.given hbossShape (.given ?_ .nil)))
    refine .some (.plain (.fields ⟨[("body", _)], [], .refl _, ?_, by simp⟩))
    exact .omitted rfl (.given hbranchShape .nil)
  · intro field hfield
    obtain rfl := List.mem_singleton.mp hfield
    exact ⟨by decide, .number (.unsigned (Text.Ron.isNumeral_toDigits 7) (by decide))⟩

/-- Both are read from those texts. -/
theorem read?_eq_of_isWritten_of_two :
    Text.Ron.read? Settings.read? "SimulatorConfig(note: [], chunk_size: 64, workers: Some(2),)" =
        some { workers := some 2, chunkSize := 64 } ∧
      Text.Ron.read? Arena.Encounter.read?
        "(id: 7, strategy: Some((body: If(then_branch: Block([]), condition: Identifier(\"x\")))),
        boss: (attack: 3, hp: 0x28, name: \"B\",), party: [], name: \"D\")" =
        some ⟨"D", [], ⟨"B", 40, 3, 0⟩, some ⟨none, .branch (.identifier "x") (.block []) none⟩⟩ :=
  ⟨read?_eq_of_isWritten.1 _ _ isWritten_settings, read?_eq_of_isWritten.2 _ _ isWritten_encounter⟩

end Trials
end CombatTrials
