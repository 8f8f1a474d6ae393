import GuildRoster.Browser
import GuildRoster.Main
import GuildRoster.Proofs.Json.Forms
import GuildRoster.Proofs.Json.WriterForms
import GuildRoster.Proofs.RecordReading
import GuildRoster.Proofs.RosterDocuments
import GuildRoster.Proofs.FileTreeLaws
import GuildRoster.Proofs.ByteOrder
import GuildRoster.Proofs.StoreKeys
import GuildRoster.Proofs.StoreRuns
import GuildRoster.Proofs.GridLaws
import GuildRoster.Proofs.Drawing
import GuildRoster.Proofs.Rows
import GuildRoster.Proofs.RowCells
import GuildRoster.Proofs.BlockDrawing
import GuildRoster.Proofs.BlockFiles
import GuildRoster.Proofs.Runs
import GuildRoster.Proofs.ImageExport
import GuildRoster.Proofs.NumberTexts
import GuildRoster.Proofs.GroupedNumbers
import GuildRoster.Proofs.Tables
import GuildRoster.Proofs.TableExport
import GuildRoster.Proofs.Painting
import GuildRoster.Proofs.BlockPixels
import GuildRoster.Proofs.RowIndependence
import GuildRoster.Proofs.PathParts
import GuildRoster.Proofs.DestinationNames
import GuildRoster.Proofs.DefaultDestinations
import GuildRoster.Proofs.ColorTexts
import GuildRoster.Proofs.ColorGrammar
import GuildRoster.Proofs.RecordTypes
import GuildRoster.Proofs.ConfigReading
import GuildRoster.Proofs.SheetFaults
import GuildRoster.Proofs.BrowserRuns
import GuildRoster.Proofs.BrowserPrompts
import GuildRoster.Proofs.WellFormedData
import GuildRoster.Proofs.Json.DocumentForms
import GuildRoster.Proofs.MemberOrder
import GuildRoster.Proofs.RosterSpellings
import GuildRoster.Proofs.CompareRosters
import GuildRoster.Proofs.TierColors
import GuildRoster.Proofs.TableRows
import GuildRoster.Proofs.EmptyRosters
import GuildRoster.Proofs.SheetColumns
import GuildRoster.Proofs.MergedColumns
import GuildRoster.Proofs.TomlData
import GuildRoster.Proofs.RecordParts
import GuildRoster.Proofs.ConfigSettings
import GuildRoster.Proofs.RowLayout
import GuildRoster.Proofs.TextPixels
import GuildRoster.Proofs.SheetAreas
import GuildRoster.Proofs.AskedLines
import GuildRoster.Proofs.SampleRosters
import GuildRoster.Proofs.StoreFiles
import GuildRoster.Proofs.LogChoice
