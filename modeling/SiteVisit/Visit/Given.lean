import SiteVisit.Datum.Tagged
import SiteVisit.Mapping.Transform
import SiteVisit.Text.Slug
import SiteVisit.Visit.Basic

namespace SiteVisit

namespace Meeting

def ofDatum (v : Datum) : Meeting where
  name := v.textAt "name"
  date := v.textAt "date"
  day := (v.fieldAt "parsed_date").dateOf?
  time := v.textAt "time"
  start := (v.fieldAt "start").timeOf?
  finish := (v.fieldAt "end").timeOf?
  location := v.textAt "location"
  zoomOption := .ofName (v.textAt "zoom_option")
  zoomRoom := v.textAt "zoom_room"
  roles := Role.all.filter fun r => (v.textsAt "roles").contains r.label
  individuals := (v.textsAt "individuals").map Individual.ofName
  hidesNames := v.flagAt "hide_names"
  rolesText := v.textAt "roles_text"
  rolesMarkup := (v.fieldAt "roles_markup").text?

end Meeting

namespace Participant

def joinedName (parts : List String) : String := " ".intercalate (parts.filter (!·.isEmpty))

def ofDatum (v : Datum) : Participant :=
  let honorific := v.textAt "prefix"
  let firstName := v.textAt "first_name"
  let lastName := v.textAt "last_name"
  let fullName := (v.fieldAt "full_name").text?.getD (joinedName [honorific, firstName, lastName])
  { honorific, firstName, lastName, fullName
    title := v.textAt "title"
    staff := v.flagAt "staff"
    faculty := v.flagAt "faculty"
    email := v.textAt "email"
    id := (v.fieldAt "id").text?.getD (Text.slug fullName)
    roles := v.textsAt "roles" }

end Participant

def Visit.ofDatum (v : Datum) : Visit where
  meetings := (v.itemsAt "meetings").map Meeting.ofDatum
  participants := (v.itemsAt "participants").map Participant.ofDatum
  zoomRooms := (v.itemsAt "zoom_rooms").filterMap fun
    | .list [.text name, .text link] => some ⟨name, link⟩
    | _ => none

end SiteVisit
