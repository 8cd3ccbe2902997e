import Formulary.Session.Opening
import Formulary.Proofs.History.BrokenWrites

/-! A history file of any bytes. A session opens on it exactly if the bytes are a text, with the
entries of that text or with none; and what is added then is found again together with them exactly
if a file can hold each of their numbers. -/
namespace Formulary

namespace Json

lemma readNumber?_of_not_isDigit {negative : Bool} {c : Char} {s : List Char}
    (h : c.isDigit = false) : readNumber? negative (c :: s) = none := by
  simp [readNumber?,readNumeral?,readDigits?,h]

/-- No value is read of blanks. -/
lemma readValue?_of_isBlank {s : List Char} (h : ∀ c ∈ s, Text.isBlank c = true) (fuel : ℕ) :
    readValue? fuel s = none := by
  cases fuel with
  | zero => rfl
  | succ fuel =>
    have hskip : ∀ c ∈ skipSpace s, Text.isBlank c = true := fun c hc =>
      h c (List.dropWhile_subset _ hc)
    rw [readValue?]
    -- every value begins with a character that is not blank
    split
    · rfl
    pick_goal 8
    · rename_i c rest _ _ _ _ _ _ _ hs
      have hc : Text.isBlank c = true := hskip c (hs ▸ List.mem_cons_self)
      refine readNumber?_of_not_isDigit (Bool.eq_false_iff.mpr fun hd => ?_)
      simp [Text.isBlank_of_isAlphanum (show c.isAlphanum = true by simp [Char.isAlphanum,hd])] at hc
    all_goals
      rename_i hs
      simp [hs,Text.isBlank] at hskip

end Json

namespace History
open Files

/-- The entries of a text, if it is the JSON text of a list of entries, and else none. -/
def decoded (text : String) : List Entry :=
  (readEntries? text).getD []

lemma readEntries?_of_isBlankText {text : String} (h : isBlankText text = true) :
    readEntries? text = none := by
  have hread := Json.readValue?_of_isBlank (s := text.toList) (List.all_eq_true.mp h)
  simp [readEntries?,Json.Source.read?,hread]

namespace Store
variable {path : String} {content : ByteArray} {text : String} {r r' : Reading} {s t : Store}
  {e : Entry}

lemma entries_ofText (text : String) : (Loaded.ofText text).entries = decoded text := by
  unfold Loaded.ofText entriesOf? decoded
  split_ifs with hblank
  · rw [readEntries?_of_isBlankText hblank]
    rfl
  · cases readEntries? text <;> rfl

/-- A file is loaded exactly if its bytes are a text. -/
lemma runs_load_bytes {outcome : Except Fault Store} :
    (load path).Runs path (.bytes content) outcome r ↔ r = .bytes content ∧
      outcome = (String.fromUTF8? content).elim (.error noText)
        fun text => .ok ⟨some path,decoded text⟩ := by
  rw [runs_load,Loaded.ofReading]
  cases String.fromUTF8? content <;> simp [Except.map,entries_ofText,and_comm]

lemma loadsAs_text {entries : List Entry} (h : String.fromUTF8? content = some text) :
    LoadsAs path (.bytes content) entries ↔ entries = decoded text := by
  simp [LoadsAs,runs_load_bytes,h]

/-- What is written is a text, whatever the numbers in it. -/
lemma loadsAs_written_iff {entries : List Entry} :
    LoadsAs path s.written entries ↔ entries = decoded s.exported :=
  loadsAs_text (fromUTF8?_toUTF8 _)

/-- The entries of a store are those of its text exactly if a file can hold them. -/
lemma eq_decoded_exported_iff : s.entries = decoded s.exported ↔ Storable s.entries := by
  rw [exported,decoded,← readEntries?_entriesText_iff]
  cases hread : readEntries? (entriesText s.entries) with
  | some entries => simp [eq_comm]
  | none =>
    refine ⟨fun hnone => ?_,fun h => by cases h⟩
    have hstorable : Storable s.entries := by simp [hnone,Storable]
    rw [readEntries?_entriesText hstorable] at hread
    cases hread

/-- What is found behind an addition: the new entry and the others exactly if a file can hold them, and
some entries in any case. -/
lemma loadsAs_add (h : (Store.add ⟨some path,decoded text⟩ e).Runs path r (.ok (),t) r') :
    ∃ found, (∀ l, LoadsAs path r' l ↔ l = found) ∧
      (found = e :: decoded text ↔ Storable (e :: decoded text)) := by
  cases runs_add h with
  | made hr =>
    obtain rfl := hr.resolve_right fun hne => hne.1 rfl
    have hfound := eq_decoded_exported_iff (s := ⟨some path,e :: decoded text⟩)
    exact ⟨_,fun l => loadsAs_written_iff,eq_comm.trans hfound⟩

end Store
end History

namespace Session
open Files (Reading)
open History (Entry Storable decoded)
open History.Store

variable {path : String} {content : ByteArray} {r : Reading}

lemma runs_openState_bytes {config : Config} (hpath : config.historyPath = some path)
    {outcome : Except Fault State} :
    (openState config).Runs path (.bytes content) outcome r ↔ r = .bytes content ∧
      outcome = (String.fromUTF8? content).elim (.error (.history noText))
        fun text => .ok (.start config ⟨some path,decoded text⟩) := by
  simp only [openState,openHistory,hpath,Files.Plan.runs_bind,History.Store.runs_load_bytes]
  cases String.fromUTF8? content <;> simp [and_comm]

/-- Whatever bytes a history file has, it is loaded and a session opens on it exactly if they are a
text, with the entries of the text or with none. After a successful addition the file is always loaded,
as the new entry and those that were read exactly if a file can hold each of their numbers. -/
theorem recovers_iff :
    (∀ outcome r, (History.Store.load path).Runs path (.bytes content) outcome r ↔
      r = .bytes content ∧ outcome = (String.fromUTF8? content).elim (.error noText)
        fun text => .ok ⟨some path,decoded text⟩) ∧
    (∀ config : Config, config.historyPath = some path → ∀ outcome r,
      (openState config).Runs path (.bytes content) outcome r ↔
        r = .bytes content ∧ outcome = (String.fromUTF8? content).elim (.error (.history noText))
          fun text => .ok (.start config ⟨some path,decoded text⟩)) ∧
    ∀ text, String.fromUTF8? content = some text → ∀ e t r,
      (History.Store.add ⟨some path,decoded text⟩ e).Runs path (.bytes content) (.ok (),t) r →
        ∃ found, (∀ l, LoadsAs path r l ↔ l = found) ∧
          (found = e :: decoded text ↔ Storable (e :: decoded text)) :=
  ⟨fun _ _ => runs_load_bytes,fun _ hpath _ _ => runs_openState_bytes hpath,
    fun _ _ _ _ _ h => loadsAs_add h⟩

/-- A list that was never closed opens as no entries, and a function is added to them. -/
theorem recovers_bracket :
    let path := "history.json"
    let content := "[".toUTF8
    let s : History.Store := ⟨some path,[]⟩
    let t : History.Store := ⟨some path,[waveEntry]⟩
    (openState { Config.standard with historyPath := some path }).Runs path (.bytes content)
        (.ok (.start { Config.standard with historyPath := some path } s)) (.bytes content) ∧
      (s.add waveEntry).Runs path (.bytes content) (.ok (),t) t.written ∧
      LoadsAs path t.written [waveEntry] := by
  intro path content s t
  have htext : String.fromUTF8? content = some "[" := History.fromUTF8?_toUTF8 _
  have hnone : decoded "[" = [] := by decide +kernel
  obtain ⟨-,hopen,hadd⟩ := @recovers_iff path content
  have hrun : (s.add waveEntry).Runs path (.bytes content) (.ok (),t) t.written :=
    runs_add_made rfl
  have hstorable : Storable [waveEntry] := by
    intro e he
    obtain rfl := List.mem_singleton.mp he
    exact ⟨by decide,by decide +kernel⟩
  refine ⟨(hopen _ rfl _ _).mpr ⟨rfl,by rw [htext,Option.elim_some,hnone]⟩,hrun,?_⟩
  obtain ⟨found,hl,hfound⟩ := hadd "[" htext waveEntry t t.written (by rwa [hnone])
  rw [hnone] at hfound
  exact (hl _).mpr (hfound.mpr hstorable).symm

/-- A small number that is read as a neighbour of the one that was written. -/
def drifting : Float := 6.5921481361982455e-9

def driftingEntry : Entry :=
  ⟨"drifting",waveEntry.timestamp,.function "x" ⟨drifting,1,80,0.5,0,1,false,false⟩,""⟩

/-- A list that was cut inside a character is not loaded, neither as its entries nor as none, and no
session opens on it; and an entry that was added to an empty list is not found again as it was. -/
theorem not_recovers_cut :
    let path := "history.json"
    let cut : ByteArray := ⟨#[0x5B,0x22,0xC3]⟩
    (∀ s r, ¬(History.Store.load path).Runs path (.bytes cut) (.ok s) r) ∧
    (∀ s r, ¬(openState { Config.standard with historyPath := some path }).Runs path (.bytes cut)
      (.ok s) r) ∧
    ∃ t r, (History.Store.add ⟨some path,decoded "[]"⟩ driftingEntry).Runs path
      (.bytes "[]".toUTF8) (.ok (),t) r ∧ ¬LoadsAs path r (driftingEntry :: decoded "[]") := by
  intro path cut
  have hcut : String.fromUTF8? cut = none := by decide +kernel
  have hdrift : ¬(Json.Number.float drifting).ReadsBack := by decide +kernel
  refine ⟨fun s r h => ?_,fun s r h => ?_,_,_,runs_add_made rfl,fun h => ?_⟩
  · simpa [hcut] using runs_load_bytes.mp h
  · simpa [hcut] using (runs_openState_bytes rfl).mp h
  · have hstorable : Storable (driftingEntry :: decoded "[]") :=
      eq_decoded_exported_iff.mp (loadsAs_written_iff.mp h)
    obtain ⟨-,hnumbers⟩ := hstorable driftingEntry List.mem_cons_self
    exact hdrift (hnumbers drifting List.mem_cons_self).2

end Session
end Formulary
