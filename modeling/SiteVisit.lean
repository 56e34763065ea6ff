import SiteVisit.Browser.Frame
import SiteVisit.Browser.Html
import SiteVisit.Browser.Page
import SiteVisit.Browser.View
import SiteVisit.Browser.When
import SiteVisit.Calendar.Date
import SiteVisit.Calendar.DateLabel
import SiteVisit.Calendar.IsoText
import SiteVisit.Calendar.Moment
import SiteVisit.Calendar.Relative
import SiteVisit.Calendar.Span
import SiteVisit.Calendar.TimeLabel
import SiteVisit.Calendar.TimeOfDay
import SiteVisit.Calendar.Wall
import SiteVisit.Calendar.Zone
import SiteVisit.Command.Arguments
import SiteVisit.Command.Files
import SiteVisit.Command.Generate
import SiteVisit.Command.Log
import SiteVisit.Command.Populate
import SiteVisit.Command.Render
import SiteVisit.Datum
import SiteVisit.Datum.Tagged
import SiteVisit.Decimal.Binary64
import SiteVisit.Decimal.Shortest
import SiteVisit.Disk
import SiteVisit.Documents.Block
import SiteVisit.Documents.Full
import SiteVisit.Documents.Individual
import SiteVisit.Documents.Kind
import SiteVisit.Documents.Layout
import SiteVisit.Documents.Summary
import SiteVisit.Fault
import SiteVisit.Folder
import SiteVisit.Main
import SiteVisit.Mapping.Eval
import SiteVisit.Mapping.Key
import SiteVisit.Mapping.Match
import SiteVisit.Mapping.Spec
import SiteVisit.Mapping.Transform
import SiteVisit.Markup.Run
import SiteVisit.Markup.TextRun
import SiteVisit.Markup.Xml.Chars
import SiteVisit.Markup.Xml.Token
import SiteVisit.Markup.Xml.Tree
import SiteVisit.Message
import SiteVisit.Proofs.Annotations
import SiteVisit.Proofs.Attendance
import SiteVisit.Proofs.Browser.Bullets
import SiteVisit.Proofs.Browser.Drawing
import SiteVisit.Proofs.Browser.Listing
import SiteVisit.Proofs.Browser.Opening
import SiteVisit.Proofs.Browser.Pages
import SiteVisit.Proofs.Browser.RoleHtml
import SiteVisit.Proofs.Browser.Stages
import SiteVisit.Proofs.Calendar.DayLabels
import SiteVisit.Proofs.Calendar.Labels
import SiteVisit.Proofs.Calendar.Language
import SiteVisit.Proofs.Calendar.Layouts
import SiteVisit.Proofs.Calendar.Numerals
import SiteVisit.Proofs.Calendar.Ordinal
import SiteVisit.Proofs.Calendar.Ranges
import SiteVisit.Proofs.Calendar.Reading
import SiteVisit.Proofs.Calendar.Relative
import SiteVisit.Proofs.Calendar.Saving
import SiteVisit.Proofs.Calendar.Spans
import SiteVisit.Proofs.Calendar.Transitions
import SiteVisit.Proofs.Calendar.Walls
import SiteVisit.Proofs.Command.Jobs
import SiteVisit.Proofs.Command.Outcomes
import SiteVisit.Proofs.Command.Pool
import SiteVisit.Proofs.Disk
import SiteVisit.Proofs.Documents.Bodies
import SiteVisit.Proofs.Documents.Contents
import SiteVisit.Proofs.Documents.People
import SiteVisit.Proofs.Documents.Rendering
import SiteVisit.Proofs.Documents.Schedule
import SiteVisit.Proofs.Documents.Slots
import SiteVisit.Proofs.Folder
import SiteVisit.Proofs.Mapping.Assembled
import SiteVisit.Proofs.Mapping.Fields
import SiteVisit.Proofs.Mapping.Groups
import SiteVisit.Proofs.Mapping.Kept
import SiteVisit.Proofs.Mapping.Keys
import SiteVisit.Proofs.Mapping.Located
import SiteVisit.Proofs.Mapping.Nested
import SiteVisit.Proofs.Mapping.Respelled
import SiteVisit.Proofs.Mapping.Rows
import SiteVisit.Proofs.Mapping.Titled
import SiteVisit.Proofs.Markup.Characters
import SiteVisit.Proofs.Markup.Grammar
import SiteVisit.Proofs.Markup.Written
import SiteVisit.Proofs.Outcome
import SiteVisit.Proofs.Reports
import SiteVisit.Proofs.RoleCells
import SiteVisit.Proofs.Rooms
import SiteVisit.Proofs.Settings.Faults
import SiteVisit.Proofs.Settings.Unset
import SiteVisit.Proofs.Store.Failure
import SiteVisit.Proofs.Store.Moments
import SiteVisit.Proofs.Store.Place
import SiteVisit.Proofs.Store.Populate
import SiteVisit.Proofs.Store.Readback
import SiteVisit.Proofs.Store.Reported
import SiteVisit.Proofs.Store.Returned
import SiteVisit.Proofs.Store.RoleText
import SiteVisit.Proofs.Store.Rows
import SiteVisit.Proofs.Store.Search
import SiteVisit.Proofs.Store.Session
import SiteVisit.Proofs.Store.Stamps
import SiteVisit.Proofs.Text.Blank
import SiteVisit.Proofs.Text.Chars
import SiteVisit.Proofs.Text.Decimal
import SiteVisit.Proofs.Text.Itemized
import SiteVisit.Proofs.Text.Letters
import SiteVisit.Proofs.Text.Lexemes
import SiteVisit.Proofs.Text.Lines
import SiteVisit.Proofs.Text.Padded
import SiteVisit.Proofs.Text.Path
import SiteVisit.Proofs.Text.Separated
import SiteVisit.Proofs.Text.Slug
import SiteVisit.Proofs.Text.SlugForm
import SiteVisit.Proofs.Text.Spaced
import SiteVisit.Proofs.Text.Tidy
import SiteVisit.Proofs.Text.Units
import SiteVisit.Proofs.Text.Wildcard
import SiteVisit.Proofs.Text.Words
import SiteVisit.Proofs.Visit.Assigned
import SiteVisit.Proofs.Visit.Columns
import SiteVisit.Proofs.Visit.DateColumn
import SiteVisit.Proofs.Visit.Guests
import SiteVisit.Proofs.Visit.Integrity
import SiteVisit.Proofs.Visit.Namesakes
import SiteVisit.Proofs.Visit.Rearranged
import SiteVisit.Proofs.Visit.Records
import SiteVisit.Proofs.Visit.RoleColumn
import SiteVisit.Proofs.Visit.Roles
import SiteVisit.Proofs.Visit.Spelling
import SiteVisit.Proofs.Visit.Unread
import SiteVisit.Proofs.Visit.Usable
import SiteVisit.Proofs.Visit.ZoomColumn
import SiteVisit.Proofs.Workbook.Cells
import SiteVisit.Proofs.Workbook.Columns
import SiteVisit.Proofs.Workbook.Headers
import SiteVisit.Proofs.Workbook.Lines
import SiteVisit.Proofs.Workbook.Repeats
import SiteVisit.Proofs.Workbook.Rows
import SiteVisit.Settings.Basic
import SiteVisit.Settings.Number
import SiteVisit.Settings.Read
import SiteVisit.Store.Basic
import SiteVisit.Store.Place
import SiteVisit.Store.Populate
import SiteVisit.Store.Query
import SiteVisit.Store.RoleText
import SiteVisit.Store.Session
import SiteVisit.Store.Stamp
import SiteVisit.System
import SiteVisit.Text.Blank
import SiteVisit.Text.Case
import SiteVisit.Text.Csv
import SiteVisit.Text.Digit
import SiteVisit.Text.Lines
import SiteVisit.Text.Path
import SiteVisit.Text.Pattern
import SiteVisit.Text.Printable
import SiteVisit.Text.Quoted
import SiteVisit.Text.Separated
import SiteVisit.Text.Slug
import SiteVisit.Text.Units
import SiteVisit.Text.Wildcard
import SiteVisit.Visit.Assignment
import SiteVisit.Visit.Attendance
import SiteVisit.Visit.Basic
import SiteVisit.Visit.Export
import SiteVisit.Visit.Fields
import SiteVisit.Visit.Given
import SiteVisit.Visit.Load
import SiteVisit.Visit.Role
import SiteVisit.Workbook.Cell
import SiteVisit.Workbook.Read
import SiteVisit.Workbook.Records
import SiteVisit.Workbook.Sheet
import SiteVisit.Yaml.Block
import SiteVisit.Yaml.Flow
import SiteVisit.Yaml.Scalar
