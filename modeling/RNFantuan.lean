import RNFantuan.Runtime.Runs
import RNFantuan.Runtime.Value
import RNFantuan.Runtime.ExpiringStore
import RNFantuan.Net.Verdict
import RNFantuan.Components.CodeInput
import RNFantuan.Nav.Guard
import RNFantuan.Nav.SwipBack
import RNFantuan.Nav.ImageBrowser
import RNFantuan.Views.Paging
import RNFantuan.Views.FailedFetch
import RNFantuan.Views.LostList
import RNFantuan.Views.HeadlineForm.AccountType
import RNFantuan.Views.HeadlineForm.Restore
import RNFantuan.Views.HeadlineForm.Settled
import RNFantuan.Views.HeadlineForm.OfferedAreas
import RNFantuan.Views.HeadlineForm.AreaRequests
import RNFantuan.Views.BindPhone
import RNFantuan.Views.ActivityDetail.IntroBox
import RNFantuan.Views.ActivityDetail.Pictures
import RNFantuan.Views.HeadlineForm.Screen
import RNFantuan.Views.HeadlineForm.Application
import RNFantuan.Views.HeadlineForm.Leaving
import RNFantuan.Components.Countdown
import RNFantuan.Views.Password
import RNFantuan.Views.VerifyPhone
import RNFantuan.Views.Submitting
import RNFantuan.Views.WholeList
import RNFantuan.Views.ActivityDetail.Page
import RNFantuan.Components.SavePicture
import RNFantuan.Views.ActivityDetail.StatusBar
