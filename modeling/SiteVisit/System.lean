import SiteVisit.Calendar.Zone
import SiteVisit.Disk
import SiteVisit.Yaml.Block

/-!
What a command takes from the system around it: the database of time zones, the reader of settings
files and the disk. That the system itself runs out of memory, of threads or of space is left out.
-/

namespace SiteVisit

structure System where
  zones : Calendar.ZoneDatabase
  yaml : String → Except Yaml.Unreadable Datum
  disk : Disk

/-- The system of the command line: a few zones, settings files without anchors, tags and the like,
and a plain disk. -/
def System.standard : System := ⟨.ofTimezones .known, Yaml.read, .plain⟩

end SiteVisit
